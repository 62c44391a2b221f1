import DiagnosticBroker.Instance.Shutdown
import DiagnosticBroker.Instance.Start
import DiagnosticBroker.Text.Quoted

/-!
# All backends

The `Pool` shares backends (`BackendManager`): for each command line it has at most one slot, which is
either held for a start that is under way or has an instance ready for use. Starts run on their own, so
that a caller who gives up does not end them.

The slots are looked at and changed one operation at a time. Only the operation that looks for
unused backends (`cleanup_idle`) holds on to them while it waits for something else.
-/

namespace DiagnosticBroker

/-! ## Launches -/

/-- What came of a launch. -/
inductive LaunchOutcome where
  | connected
  | refused (fault : Fault)
  /-- The task with a number, which was to launch the backend, died with these last words. -/
  | crashed (task : Nat) (words : String)

/-- A launch that was asked for. -/
structure Launch where
  backend : Backend
  /-- The directory that the backend runs in. -/
  workdir : Option String
  begun : Time
  outcome : Option LaunchOutcome := none

/-! ## Starts -/

/-- What came of a start: the index of the ready instance, or why there is none. -/
abbrev StartResult := Except Fault Nat

/-- How far a start is. -/
inductive StartJob.Phase where
  /-- It is about to be decided how many attempts there are. -/
  | begin
  /-- A launch is under way. -/
  | launching (attempt launch : Nat)
  /-- A launched backend is being started. -/
  | starting (attempt index : Nat) (start : Instance.Start)
  /-- A backend that failed to start is being stopped. -/
  | stopping (attempt index : Nat) (shutdown : Instance.Shutdown) (fault : Fault)
  /-- The pause before an attempt. -/
  | pausing (attempt : Nat) (deadline : Time)
  /-- All attempts have failed, and the command is about to be marked as unavailable. -/
  | marking
  /-- The slot is about to be settled. -/
  | settling (result : StartResult)
  | over (result : StartResult)
  /-- The start died of this, and its slot is about to be cleared. -/
  | crashed (cause : String)
  /-- The start died of this, and its slot is cleared. -/
  | cleared (cause : String)

/-- A start of a backend (`StartJob`). -/
structure StartJob where
  backend : Backend
  /-- The attempts that are allowed. -/
  policy : Backoff := .once
  phase : StartJob.Phase := .begin
  /-- How often those who wait for the start were woken. -/
  notices : Nat := 0

/-- How the death of the task with a number is reported (the error that `ensure_ready` gets when it
joins a start). -/
def StartJob.causeOfDeath (task : Nat) (words : String) : String :=
  s!"task {task} panicked with message {Text.quoted words}"

/-- What came of a start, as those who wait for its end see it (`ensure_ready`). -/
def StartJob.result? (j : StartJob) : Option StartResult :=
  let died (cause : String) : StartResult :=
    .error (.startFailed s!"{j.backend.command.text}: start task failed: {cause}")
  match j.phase with
  | .over r => some r
  | .crashed cause => some (died cause)
  | .cleared cause => some (died cause)
  | _ => none

/-! ## Slots -/

/-- The slot of a command line (`Slot`). -/
inductive Slot where
  /-- The start with this index is under way. -/
  | initializing (start : Nat)
  /-- The instance with this index is ready; `lastUsed` is the uptime at its last use. -/
  | ready (index lastUsed : Nat)
deriving DecidableEq, Repr

/-- The index of the instance in a slot. -/
def Slot.index? : Slot → Option Nat
  | .initializing _ => none
  | .ready i _ => some i

/-- All backends. -/
structure Pool where
  budget : Budget
  /-- The directories that backends are told to work in. -/
  roots : List String
  /-- The directory from which relative paths start. -/
  directory : String
  slots : List (Command × Slot) := []
  /-- Whether an operation that waits holds on to the slots. -/
  held : Bool := false
  /-- The commands whose last start used up all attempts. -/
  unavailable : List Command := []
  instances : List Instance := []
  starts : List StartJob := []
  launches : List Launch := []
  /-- The documents that callers who gave up have left open, each with the index of its instance, in
  the order in which they were left. -/
  leftOpen : List (Nat × String) := []
  /-- How long the program has run, in nanoseconds. It goes on with every step. -/
  uptime : Nat := 0

namespace Pool

/-! ## Slots -/

def slot? (p : Pool) (c : Command) : Option Slot := p.slots.lookup c

/-- Empties the slot of a command. -/
def clearSlot (p : Pool) (c : Command) : Pool :=
  { p with slots := p.slots.filter fun e => e.1 ≠ c }

/-- Fills the slot of a command. -/
def setSlot (p : Pool) (c : Command) (s : Slot) : Pool :=
  { p with slots := (p.clearSlot c).slots ++ [(c, s)] }

/-- Notes that the instance in a slot was used (`touch`). -/
def touchSlot (p : Pool) (c : Command) : Pool :=
  { p with slots := p.slots.map fun e =>
      match e with
      | (d, .ready i used) => if d = c then (d, .ready i p.uptime) else (d, .ready i used)
      | e => e }

/-! ## Instances -/

def instance? (p : Pool) (i : Nat) : Option Instance := p.instances[i]?

def setInstance (p : Pool) (i : Nat) (x : Instance) : Pool :=
  { p with instances := p.instances.set i x }

/-- Whether an instance can take new work (`is_healthy`). `exited` tells which processes have
ended. -/
def isHealthy (exited : Nat → Bool) (x : Instance) : Bool :=
  x.lifecycle.isUsable &&
    match x.process with
    | some n => !exited n
    | none => true

/-- Changes an instance. -/
def modifyInstance (p : Pool) (i : Nat) (f : Instance → Instance) : Pool :=
  { p with instances := p.instances.modify i f }

/-- One step of an operation on an instance. Without the instance the operation never goes on. -/
def onInstance {ρ α : Type} (p : Pool) (i : Nat) (f : Instance → Step Instance ρ α) :
    Step Pool ρ α :=
  match p.instance? i with
  | some x => (f x).lift (p.setInstance i)
  | none => .blocked none

/-! ## Starts and launches -/

def start? (p : Pool) (j : Nat) : Option StartJob := p.starts[j]?

def setStart (p : Pool) (j : Nat) (s : StartJob) : Pool := { p with starts := p.starts.set j s }

/-- Asks for a launch, and tells its number. -/
def launch (p : Pool) (now : Time) (b : Backend) (workdir : Option String) : Pool × Nat :=
  ({ p with launches := p.launches ++ [{ backend := b, workdir := workdir, begun := now }] },
    p.launches.length)

/-- What came of a launch, if anything yet. -/
def launchOutcome? (p : Pool) (l : Nat) : Option LaunchOutcome := (p.launches[l]?).bind (·.outcome)

/-- Says what came of a launch. -/
def resolveLaunch (p : Pool) (l : Nat) (o : LaunchOutcome) : Pool :=
  { p with launches := p.launches.modify l fun x => { x with outcome := some o } }

/-- Adds an instance for a backend that is not started, and tells its index. -/
def addInstance (p : Pool) (b : Backend) : Pool × Nat :=
  ({ p with instances := p.instances ++ [.new b p.budget p.roots p.directory] },
    p.instances.length)

end Pool

/-- What operations of the pool have to know of the world. -/
structure Surroundings where
  now : Time
  /-- Which processes have ended, by the number of their launch. -/
  exited : Nat → Bool
  /-- Whether launched backends are processes. -/
  isProcess : Bool
  /-- The number of the client's own process, as it is told to backends. -/
  clientProcess : Nat

end DiagnosticBroker
