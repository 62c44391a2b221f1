import DiagnosticBroker.Pool.Basic

/-!
# Getting a ready backend

A caller gets the instance in the slot of its command if that is healthy (`ensure_ready`). An unhealthy
one is taken out and stopped first (`retire`); a start that is under way is waited for; and if the slot
is empty, the caller begins a start of its own.
-/

namespace DiagnosticBroker

/-! ## Taking an instance out of use -/

/-- How far an instance is taken out of use. -/
inductive Retire where
  /-- The slot is about to be emptied. -/
  | remove
  | stopping (shutdown : Instance.Shutdown)

/-- Empties the slot of a command if it still has the instance (`retire`, under the lock). -/
def Pool.clearInstance (p : Pool) (c : Command) (i : Nat) : Pool :=
  match p.slot? c with
  | some (.ready k _) => if k = i then p.clearSlot c else p
  | _ => p

/-- One step of taking an instance out of use, from one await of `retire` to the next. -/
def Retire.step (w : Surroundings) (p : Pool) (c : Command) (i : Nat) :
    Retire → Step Pool Retire Unit
  | .remove => if p.held then .blocked none else .next (p.clearInstance c i) (.stopping .begin)
  | .stopping s =>
    (p.onInstance i (s.step w.exited w.now)).within .stopping fun p () => .done p ()

/-! ## Getting an instance -/

/-- How far a caller is on the way to a ready instance. -/
inductive Ensure.Phase where
  /-- The slot is about to be looked at. -/
  | look
  /-- The process of the instance is about to be looked at. -/
  | probe (index : Nat)
  /-- The use is about to be noted. -/
  | touch (index : Nat)
  | retire (index : Nat) (retire : Retire)
  /-- It is about to be checked that the start is still under way. -/
  | enlist (start seen : Nat)
  /-- Waiting to be woken by a start. -/
  | parked (start seen : Nat)
  /-- The empty slot is about to be taken. -/
  | claim
  /-- Waiting for the caller's own start to end. -/
  | joining (start : Nat)

/-- A caller who wants a ready instance. -/
structure Ensure where
  backend : Backend
  phase : Ensure.Phase := .look

namespace Ensure

/-- The caller goes on from a phase. -/
def enter (e : Ensure) (phase : Ensure.Phase) : Ensure := { e with phase := phase }

/-- What follows a look at the slot. -/
def looked (p : Pool) (e : Ensure) : Step Pool Ensure StartResult :=
  match p.slot? e.backend.command with
  | some (.ready i _) =>
    if ((p.instance? i).map (·.lifecycle.isUsable)).getD false then .next p (e.enter (.probe i))
    else .next p (e.enter (.retire i .remove))
  | some (.initializing j) =>
    .next p (e.enter (.enlist j (((p.start? j).map (·.notices)).getD 0)))
  | none => .next p (e.enter .claim)

/-- Takes the slot and begins a start, unless another caller was faster. -/
def claimed (p : Pool) (e : Ensure) : Step Pool Ensure StartResult :=
  match p.slot? e.backend.command with
  | some _ => .next p (e.enter .look)
  | none =>
    let j := p.starts.length
    let job : StartJob := { backend := e.backend }
    let p := { p with starts := p.starts ++ [job] }
    .next (p.setSlot e.backend.command (.initializing j)) (e.enter (.joining j))

/-- One step of a caller, from one await of `ensure_ready` to the next. -/
def step (w : Surroundings) (p : Pool) (e : Ensure) : Step Pool Ensure StartResult :=
  match e.phase with
  | .look => if p.held then .blocked none else looked p e
  | .probe i =>
    if ((p.instance? i).map fun x =>
        match x.process with
        | some n => !w.exited n
        | none => true).getD false then .next p (e.enter (.touch i))
    else .next p (e.enter (.retire i .remove))
  | .touch i => if p.held then .blocked none else .done (p.touchSlot e.backend.command) (.ok i)
  | .retire i r =>
    (r.step w p e.backend.command i).within (fun r => e.enter (.retire i r)) fun p () =>
      .next p (e.enter .look)
  | .enlist j seen =>
    if p.held then .blocked none
    else if p.slot? e.backend.command = some (.initializing j) then
      .next p (e.enter (.parked j seen))
    else .next p (e.enter .look)
  | .parked j seen =>
    match p.start? j with
    | some s => if s.notices = seen then .blocked none else .next p (e.enter .look)
    | none => .next p (e.enter .look)
  | .claim => if p.held then .blocked none else claimed p e
  | .joining j =>
    match (p.start? j).bind (·.result?) with
    | some r => .done p r
    | none => .blocked none

end Ensure

end DiagnosticBroker
