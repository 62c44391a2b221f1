import DiagnosticBroker.Pool.Basic

/-!
# Stopping backends

One backend (`shutdown_backend`), all of them (`shutdown_all`), or those that have not been used for
some time (`cleanup_idle`). Slots are emptied first, and then the instances that were in them are stopped
all at once.
-/

namespace DiagnosticBroker

/-- Instances that are being stopped, those that are not done yet. -/
abbrev StopAll := List (Nat × Instance.Shutdown)

namespace StopAll

def ofIndices (is : List Nat) : StopAll := is.map fun i => (i, .begin)

/-- One step of the first instance that can go on, of those in `todo`; those in `before` cannot. -/
def stepFrom (w : Surroundings) (p : Pool) (before : StopAll) (until? : Option Time) :
    StopAll → Step Pool StopAll Unit
  | [] => if before.isEmpty then .done p () else .blocked until?
  | (i, s) :: todo =>
    match p.onInstance i (s.step w.exited w.now) with
    | .blocked u => stepFrom w p (before ++ [(i, s)]) ([until?, u].filterMap id).min? todo
    | .next p s => .next p (before ++ (i, s) :: todo)
    | .later p s => .later p (before ++ (i, s) :: todo)
    | .done p () => .next p (before ++ todo)

/-- One step of stopping instances. -/
def step (w : Surroundings) (p : Pool) (s : StopAll) : Step Pool StopAll Unit :=
  stepFrom w p [] none s

end StopAll

/-! ## Which ones -/

/-- Which backends are stopped. -/
inductive Stop.Choice where
  | command (command : Command)
  | all
  /-- Those that nobody has used for longer than this and that have no document open. -/
  | idle (age : Duration)

/-- Somebody holds the slots and looks for those that are idle, one after the other. -/
structure Stop.Search where
  age : Duration
  /-- The command of an idle slot, whose instance is about to be asked for its documents. -/
  command : Command
  index : Nat
  /-- The slots that have not been looked at. -/
  rest : List (Command × Slot)
  /-- The idle slots so far whose instances have no document open. -/
  found : List (Command × Nat)

/-- How far it is. -/
inductive Stop.Phase where
  | begin
  | asking (search : Stop.Search)
  | stopping (rest : StopAll)

/-- Stopping some backends. The result is their number. -/
structure Stop where
  choice : Stop.Choice
  count : Nat := 0
  phase : Stop.Phase := .begin

namespace Stop

/-- The instance in a slot, if it has not been used for longer than a duration (`idle_duration`). -/
def idleIndex? (p : Pool) (age : Duration) : Slot → Option Nat
  | .ready i used => if age.nanos < p.uptime - used then some i else none
  | .initializing _ => none

/-- Goes on with stopping some instances. -/
def stop (p : Pool) (s : Stop) (is : List Nat) : Step Pool Stop Nat :=
  .next p { s with count := is.length, phase := .stopping (.ofIndices is) }

/-- Goes on with the slots in `rest`: the first one that is idle now is asked next
(`open_document_count`). If there is none, those that were found are taken out at once. This is the
loop of `cleanup_idle`. -/
def seek (p : Pool) (s : Stop) (age : Duration) (found : List (Command × Nat)) :
    List (Command × Slot) → Step Pool Stop Nat
  | [] =>
    stop (found.foldl (fun p e => p.clearSlot e.1) { p with held := false }) s (found.map (·.2))
  | (c, slot) :: rest =>
    match idleIndex? p age slot with
    | some i => .next { p with held := true } { s with phase := .asking ⟨age, c, i, rest, found⟩ }
    | none => seek p s age found rest

/-- One step of stopping some backends. -/
def step (w : Surroundings) (p : Pool) (s : Stop) : Step Pool Stop Nat :=
  match s.phase with
  | .begin =>
    if p.held then .blocked none
    else
      match s.choice with
      | .command c => stop (p.clearSlot c) s ((p.slot? c).bind Slot.index?).toList
      | .all => stop { p with slots := [] } s (p.slots.filterMap fun e => e.2.index?)
      | .idle age => seek p s age [] p.slots
  | .asking x =>
    let unused := ((p.instance? x.index).map (·.documents.isEmpty)).getD true
    seek p s x.age (if unused then x.found ++ [(x.command, x.index)] else x.found) x.rest
  | .stopping rest =>
    (rest.step w p).within (fun rest => { s with phase := .stopping rest }) fun p () =>
      .done p s.count

end Stop

/-! ## Telling how things are -/

/-- How far the backend of each command is, in the order of commands (`status`). -/
def Pool.status (p : Pool) : List (Command × Lifecycle) :=
  let entries := p.slots.map fun e =>
    match e.2 with
    | .ready i _ => (e.1, ((p.instance? i).map (·.lifecycle)).getD .notStarted)
    | .initializing _ => (e.1, .starting)
  entries.mergeSort fun a b => Registry.commandLe a.1 b.1

/-- The commands whose backends can take new work, in order (`running_backends`). -/
def Pool.running (p : Pool) (exited : Nat → Bool) : List Command :=
  let commands := p.slots.filterMap fun e =>
    match e.2 with
    | .ready i _ =>
      if ((p.instance? i).map (Pool.isHealthy exited)).getD false then some e.1 else none
    | .initializing _ => none
  commands.mergeSort Registry.commandLe

end DiagnosticBroker
