import DiagnosticBroker.Simulation.World

/-!
# Scenarios

A `Scenario` drives a world from outside, one command after the other. What takes time can be waited
for or put into the background under a name; waiters and sessions have names too. A command is over
when nothing else can run at the time at which its result is there.
-/

namespace DiagnosticBroker.Simulation

/-- A waiter at an instance. -/
structure Handle where
  /-- The index of the instance. -/
  index : Nat
  waiter : Waiter

/-- A world that is driven from outside, with everything that has a name. -/
structure Scenario where
  schedule : Schedule World Op Outcome
  /-- The numbers of the operations in the background. -/
  tasks : List (String × Nat) := []
  waiters : List (String × Handle) := []
  /-- The waiters that operations in the background have taken, with the number of the operation. -/
  lent : List (Nat × String × Handle) := []
  sessions : List (String × Session) := []
  /-- The instances that came with a result, in the order in which each did for the first time. -/
  handedOut : List Nat := []

/-- The instances that come with a result. -/
def Outcome.instances : Outcome → List Nat
  | ensured (.ok i) => [i]
  | executed _ is => is
  | _ => []

namespace Scenario

/-- A scenario at its beginning. -/
def ofWorld (w : World) : Scenario := { schedule := .ofState w }

def now (s : Scenario) : Time := s.schedule.now

def world (s : Scenario) : World := s.schedule.state

/-! ## At once -/

/-- The waiters whose operation is over can be used again. -/
def reclaim (s : Scenario) : Scenario :=
  let (back, lent) := s.lent.partition fun e => (s.schedule.outcome? e.1).isSome
  { s with lent := lent, waiters := back.map (·.2) ++ s.waiters }

/-- Lets everything run that can run now. -/
def settle (s : Scenario) : Scenario :=
  { s with schedule := s.schedule.settle World.machine Schedule.maxSteps }.reclaim

/-- Changes the world. -/
def act {α : Type} (s : Scenario) (f : World → World × α) : Scenario × α :=
  let (w, a) := f s.world
  ({ s with schedule := s.schedule.setState World.machine w }.settle, a)

/-- Changes an instance; `none` if there is no such instance. -/
def actOn {α : Type} (s : Scenario) (i : Nat) (f : Instance → Instance × α) :
    Scenario × Option α :=
  s.act fun w =>
    match w.pool.instance? i with
    | none => (w, none)
    | some x =>
      let (x, a) := f x
      (w.setPool (w.pool.setInstance i x), some a)

/-! ## Operations -/

/-- Notes that an instance came with a result. -/
def handOut (s : Scenario) (i : Nat) : Scenario :=
  if i ∈ s.handedOut then s else { s with handedOut := s.handedOut ++ [i] }

/-- Takes over the operations with what came of some of them. -/
def proceed (s : Scenario) (schedule : Schedule World Op Outcome)
    (outcomes : List (Option Outcome)) : Scenario :=
  (outcomes.flatMap fun o => (o.map Outcome.instances).getD []).foldl handOut
    { s with schedule := schedule }.reclaim

/-- Runs an operation until it is over; one that never is has no outcome. -/
def perform (s : Scenario) (op : Op) : Scenario × Option Outcome :=
  let (schedule, r) := s.schedule.run World.machine op
  (s.proceed schedule [r.map (·.2)], r.map (·.2))

/-- Runs operations at the same time until all of them are over. -/
def performAll (s : Scenario) (ops : List Op) : Scenario × List (Option Outcome) :=
  let (schedule, numbers) := ops.foldl (fun (acc : Schedule World Op Outcome × List Nat) op =>
    let (schedule, n) := acc.1.spawn op
    (schedule, acc.2 ++ [n])) (s.schedule, [])
  let schedule := numbers.foldl (fun schedule n =>
    schedule.runUntil World.machine n) schedule
  let outcomes := numbers.map fun n => (schedule.outcome? n).map (·.2)
  (s.proceed schedule outcomes, outcomes)

/-- Puts an operation into the background under a name. -/
def spawn (s : Scenario) (name : String) (op : Op) : Scenario :=
  let (schedule, n) := s.schedule.spawn op
  { s with schedule := schedule, tasks := (name, n) :: s.tasks }.settle

/-- Waits for an operation in the background; one that was given up has no outcome. -/
def join (s : Scenario) (name : String) : Scenario × Option (Time × Outcome) :=
  match s.tasks.lookup name with
  | none => (s, none)
  | some n =>
    if (s.schedule.outcome? n).isNone && !s.schedule.isUnderWay n then (s.settle, none)
    else
      let schedule := s.schedule.runUntil World.machine n
      let r := schedule.outcome? n
      (s.proceed schedule [r.map (·.2)], r)

/-- Gives up an operation in the background. -/
def abort (s : Scenario) (name : String) : Scenario :=
  match s.tasks.lookup name with
  | none => s
  | some n =>
    { s with
      schedule := s.schedule.abort World.machine n
      lent := s.lent.filter fun e => e.1 ≠ n }.settle

/-! ## Waiters -/

/-- Gives a waiter back. -/
def release (s : Scenario) (h : Handle) : Scenario :=
  (s.actOn h.index fun x => (x.releaseWaiter h.waiter, ())).1

/-- Gives a waiter a name. The one that had the name before is given back. -/
def keepWaiter (s : Scenario) (name : String) (h : Handle) : Scenario :=
  let t := { s with waiters := (name, h) :: s.waiters.filter fun e => e.1 ≠ name }
  match s.waiters.lookup name with
  | some old => t.release old
  | none => t

/-- Gives the waiter with a name back. -/
def dropWaiter (s : Scenario) (name : String) : Scenario :=
  match s.waiters.lookup name with
  | none => s
  | some h => { s with waiters := s.waiters.filter fun e => e.1 ≠ name }.release h

/-- A wait of a waiter. -/
def waitOp (h : Handle) (timeout settle : Duration) : Op :=
  .wait h.index { waiter := h.waiter, timeout := timeout, settle := settle }

/-- Waits with the waiter with a name. -/
def wait (s : Scenario) (name : String) (timeout settle : Duration) : Scenario × Option Outcome :=
  match s.waiters.lookup name with
  | none => (s, none)
  | some h => s.perform (waitOp h timeout settle)

/-- Waits in the background with the waiter with a name, which cannot be used meanwhile. -/
def spawnWait (s : Scenario) (waiter task : String) (timeout settle : Duration) : Scenario :=
  match s.waiters.lookup waiter with
  | none => s
  | some h =>
    let n := s.schedule.nextNumber
    { s with
      waiters := s.waiters.filter fun e => e.1 ≠ waiter
      lent := (n, waiter, h) :: s.lent }.spawn task (waitOp h timeout settle)

/-- Opens a document at an instance and gives the waiter a name. -/
def openDocument (s : Scenario) (name : String) (i : Nat) (uri languageId text : String) :
    Scenario × Option (Except Fault (Int × Waiter)) :=
  let now := s.now
  let (s, r) := s.actOn i fun x => x.openDocument now uri languageId text
  match r with
  | some (.ok (v, w)) => (s.keepWaiter name ⟨i, w⟩, some (.ok (v, w)))
  | r => (s, r)

/-! ## Sessions -/

/-- Gives a session up without closing its document. -/
def dropSession (s : Scenario) (name : String) : Scenario :=
  match s.sessions.lookup name with
  | none => s
  | some x =>
    ({ s with sessions := s.sessions.filter fun e => e.1 ≠ name }.act fun w =>
      (w.setPool (x.drop w.pool), ())).1

/-- Opens a session under a name. A session that had the name before is given up. -/
def openSession (s : Scenario) (name : String) (o : Session.Opening) :
    Scenario × Option (Except Fault Session) :=
  match s.perform (.opening o) with
  | (s, some (.opened (.ok x))) =>
    let s := s.dropSession name
    ({ s with sessions := (name, x) :: s.sessions }, some (.ok x))
  | (s, some (.opened (.error f))) => (s, some (.error f))
  | (s, _) => (s, none)

/-- Waits for the diagnostics of a session. -/
def waitSession (s : Scenario) (name : String) (timeout settle : Duration) :
    Scenario × Option (Wait.Outcome × Session) :=
  match s.sessions.lookup name with
  | none => (s, none)
  | some x =>
    match s.perform (.wait x.index (x.wait timeout settle)) with
    | (s, some (.waited o)) =>
      let x := x.keep o
      ({ s with sessions := (name, x) :: s.sessions.filter fun e => e.1 ≠ name }, some (o, x))
    | (s, _) => (s, none)

/-- Closes a session. -/
def closeSession (s : Scenario) (name : String) : Scenario × Option Session :=
  match s.sessions.lookup name with
  | none => (s, none)
  | some x =>
    (({ s with sessions := s.sessions.filter fun e => e.1 ≠ name }.act fun w =>
      (w.setPool (x.close w.pool), ())).1, some x)

/-! ## What was seen -/

/-- What backends have seen since this was asked last, in the order of their launches. -/
def takeEvents (s : Scenario) : Scenario × List (Nat × Event) :=
  let events := s.world.events.mergeSort fun a b => a.1 ≤ b.1
  ({ s with schedule := { s.schedule with state := { s.world with events := [] } } }, events)

/-- The log lines of backends since this was asked last. -/
def takeLines (s : Scenario) : Scenario × List (Command × Wire.LogLine) :=
  ({ s with schedule := { s.schedule with state := { s.world with lines := [] } } }, s.world.lines)

/-- The number of an instance in the order in which they came with results. -/
def numberOf (s : Scenario) (i : Nat) : Nat := s.handedOut.idxOf i

/-- The index of the instance with a number. -/
def indexOf (s : Scenario) (n : Nat) : Option Nat := s.handedOut[n]?

end Scenario

end DiagnosticBroker.Simulation
