import DiagnosticBroker.Step

/-!
# Running operations in virtual time

A `Schedule` runs any number of operations on a shared state. Of the operations that can go on, the
one that has been able to for the longest time runs until it has to wait; a waiting operation is
looked at again after every step, and queues up as soon as it can go on. Time stands still while
anything can run and then moves on to the next deadline. So the outcome is determined.
-/

namespace DiagnosticBroker

/-- How the operations of a kind `τ` work on a shared state `σ`, with results in `α`. -/
structure Machine (σ τ α : Type) where
  step : Time → σ → τ → Step σ τ α
  /-- The operations that a change of the state has brought into being. -/
  spawned : σ → σ → List τ
  /-- What is left of the state when an operation is given up. -/
  cancel : Time → σ → τ → σ

/-- Operations on a shared state, at some time. -/
structure Schedule (σ τ α : Type) where
  now : Time
  state : σ
  /-- The operations that can go on, each with its number, the next one first. -/
  ready : List (Nat × τ) := []
  /-- The operations that have to wait, the one that has waited longest first. -/
  waiting : List (Nat × τ) := []
  /-- The operations that are over, with the time at which they ended. -/
  finished : List (Nat × Time × α) := []
  nextNumber : Nat := 0

namespace Schedule

variable {σ τ α : Type}

def ofState (state : σ) : Schedule σ τ α := { now := 0, state := state }

/-- Adds an operation at the end of the queue, and tells its number. -/
def spawn (s : Schedule σ τ α) (op : τ) : Schedule σ τ α × Nat :=
  let n := s.nextNumber
  ({ s with ready := s.ready ++ [(n, op)], nextNumber := n + 1 }, n)

/-- Adds operations at the end of the queue. -/
def spawnAll (s : Schedule σ τ α) (ops : List τ) : Schedule σ τ α :=
  ops.foldl (fun s op => (s.spawn op).1) s

/-- Whether an operation has to wait as things are. -/
def mustWait (m : Machine σ τ α) (s : Schedule σ τ α) (op : τ) : Bool :=
  (m.step s.now s.state op).isBlocked

/-- Moves the waiting operations that can go on to the end of the queue. -/
def wake (m : Machine σ τ α) (s : Schedule σ τ α) : Schedule σ τ α :=
  let (waiting, woken) := s.waiting.partition fun e => s.mustWait m e.2
  { s with waiting := waiting, ready := s.ready ++ woken }

/-- Takes over a changed state, and with it the operations that it brought into being. -/
def setState (m : Machine σ τ α) (s : Schedule σ τ α) (state : σ) : Schedule σ τ α :=
  ({ s with state := state }.wake m).spawnAll (m.spawned s.state state)

/-- One step of the operation at the front of the queue. -/
def turn (m : Machine σ τ α) (s : Schedule σ τ α) : Schedule σ τ α :=
  match s.ready with
  | [] => s
  | (n, op) :: rest =>
    match m.step s.now s.state op with
    | .blocked _ => { s with ready := rest, waiting := s.waiting ++ [(n, op)] }
    | .next state op => { s with ready := (n, op) :: rest }.setState m state
    | .later state op =>
      let s := { s with ready := rest }.setState m state
      { s with ready := s.ready ++ [(n, op)] }
    | .done state a =>
      { s with ready := rest, finished := (n, s.now, a) :: s.finished }.setState m state

/-- The outcome of an operation, with the time at which it ended. -/
def outcome? (s : Schedule σ τ α) (n : Nat) : Option (Time × α) := s.finished.lookup n

/-- Whether an operation is neither over nor given up. -/
def isUnderWay (s : Schedule σ τ α) (n : Nat) : Bool :=
  (s.ready ++ s.waiting).any fun e => e.1 = n

/-- The deadline of a waiting operation, if it has one. -/
def deadlineOf (m : Machine σ τ α) (s : Schedule σ τ α) (op : τ) : Option Time :=
  match m.step s.now s.state op with
  | .blocked u => u
  | _ => none

/-- The next deadline of a waiting operation. -/
def nextDeadline? (m : Machine σ τ α) (s : Schedule σ τ α) : Option Time :=
  (s.waiting.filterMap fun e => s.deadlineOf m e.2).min?

/-- Runs everything that can run at this time; each step takes one unit of `fuel`. -/
def settle (m : Machine σ τ α) (s : Schedule σ τ α) : Nat → Schedule σ τ α
  | 0 => s
  | fuel + 1 => if s.ready.isEmpty then s else (s.turn m).settle m fuel

/-- Moves time on to the next deadline, if there is any. -/
def tick (m : Machine σ τ α) (s : Schedule σ τ α) : Option (Schedule σ τ α) :=
  (s.nextDeadline? m).map fun t => { s with now := max s.now t }.wake m

/-- The steps that are allowed at one time. -/
def maxSteps : Nat := 1000000

/-- Runs as long as a condition holds when nothing else can run at a time; each point of time takes
one unit of `fuel`. -/
def runFor (m : Machine σ τ α) (go : Schedule σ τ α → Bool) (s : Schedule σ τ α) :
    Nat → Schedule σ τ α
  | 0 => s
  | fuel + 1 =>
    let s := s.settle m maxSteps
    if go s then
      match s.tick m with
      | none => s
      | some s => runFor m go s fuel
    else s

/-- Runs until an operation is over and nothing else can run at that time. -/
def runUntil (m : Machine σ τ α) (n : Nat) (s : Schedule σ τ α) : Schedule σ τ α :=
  s.runFor m (fun s => (s.outcome? n).isNone) maxSteps

/-- Runs as long as the state has some property when nothing else can run at a time. -/
def runWhile (m : Machine σ τ α) (p : σ → Bool) (s : Schedule σ τ α) : Schedule σ τ α :=
  s.runFor m (fun s => p s.state) maxSteps

/-- Runs an operation until it is over and nothing else can run at that time. -/
def run (m : Machine σ τ α) (s : Schedule σ τ α) (op : τ) : Schedule σ τ α × Option (Time × α) :=
  let (s, n) := s.spawn op
  let s := s.runUntil m n
  (s, s.outcome? n)

/-- Gives up an operation that is not over. -/
def abort (m : Machine σ τ α) (s : Schedule σ τ α) (n : Nat) : Schedule σ τ α :=
  match (s.ready ++ s.waiting).lookup n with
  | none => s
  | some op =>
    let s := { s with
      ready := s.ready.filter fun e => e.1 ≠ n
      waiting := s.waiting.filter fun e => e.1 ≠ n }
    s.setState m (m.cancel s.now s.state op)

end Schedule

end DiagnosticBroker
