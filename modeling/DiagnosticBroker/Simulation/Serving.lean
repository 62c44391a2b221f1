import DiagnosticBroker.Simulation.World
import DiagnosticBroker.Tool.Server

/-!
# Serving in a simulated world

A `Host` lets a tool server run in virtual time, with one of three who check files: the pool of a
world, somebody who never finds anything, or a `Stub` with prepared answers. Lines are typed into
the server's input, and its responses are taken from its output.
-/

namespace DiagnosticBroker.Simulation

/-! ## Prepared answers -/

/-- The prepared answer to the check of a file. -/
structure StubAnswer where
  delay : Duration := .zero
  error : Option String := none
  diagnostics : List Diagnostic := []
  /-- Whether the check dies. -/
  dies : Bool := false

/-- Somebody who checks files by prepared answers, and what was asked of them. -/
structure Stub where
  answers : List (String × StubAnswer) := []
  reapDelay : Duration := .zero
  /-- The files that were to be checked. -/
  calls : List String := []
  reaps : Nat := 0
  isShutDown : Bool := false

namespace Stub

/-- The prepared answer for a file; without one there is nothing to report. -/
def answer (s : Stub) (file : String) : StubAnswer := (s.answers.lookup file).getD {}

/-- The report that an answer means, unless the check dies. -/
def StubAnswer.report (a : StubAnswer) (file : String) : Option Report :=
  if a.dies then none
  else
    match a.error with
    | some e => some (.failure file e)
    | none => some (.success file a.diagnostics)

end Stub

/-! ## Who checks files -/

/-- Who checks files. -/
inductive CheckerKind where
  /-- The pool of the world. -/
  | pool
  /-- Somebody who never finds anything and has no backends. -/
  | nobody
  | stub
deriving DecidableEq, Repr

/-- How far a piece of work is that was asked of those who check files. -/
inductive Errand where
  /-- By the pool. -/
  | validate (validation : Validation)
  | stop (stop : Stop)
  /-- There is nothing to do but to report, if at all. -/
  | nothing (report : Option Report)
  /-- By the stub. -/
  | stubCheck (file : String)
  | stubReap
  | stubShutdown
  | stubPause (deadline : Time) (report : Option Report)

/-- A world and a stub. -/
structure Stage where
  world : World
  stub : Stub := {}

namespace Errand

/-- The world after a step of the pool. -/
def onWorld {ρ α : Type} (s : Stage) (x : Step Pool ρ α) : Step Stage ρ α :=
  (s.world.onPool x).lift fun w => { s with world := w }

/-- The stub takes some time for its answer. -/
def pause (now : Time) (s : Stage) (stub : Stub) (d : Duration) (r : Option Report) :
    Step Stage Errand (Option Report) :=
  .next { s with stub := stub } (.stubPause (deadlineAfter now d) r)

/-- One step of a piece of work. -/
def step (now : Time) (s : Stage) : Errand → Step Stage Errand (Option Report)
  | .validate v =>
    let w := s.world
    (onWorld s (v.step w.rules w.files (w.surroundings now) w.pool)).within .validate fun s r =>
      .done s (some (Validation.report v.file r))
  | .stop x =>
    (onWorld s (x.step (s.world.surroundings now) s.world.pool)).within .stop fun s _ =>
      .done s none
  | .nothing r => .done s r
  | .stubCheck file =>
    let a := s.stub.answer file
    pause now s { s.stub with calls := s.stub.calls ++ [file] } a.delay
      (Stub.StubAnswer.report a file)
  | .stubReap =>
    pause now s { s.stub with reaps := s.stub.reaps + 1 } s.stub.reapDelay none
  | .stubShutdown => .done { s with stub := { s.stub with isShutDown := true } } none
  | .stubPause deadline r => if deadline ≤ now then .done s r else .blocked (some deadline)

/-- What is left when a piece of work is given up. -/
def cancel (s : Stage) : Errand → Stage
  | .validate v => { s with world := s.world.setPool (v.cancel s.world.pool) }
  | _ => s

/-- Those who check files, as the tool server needs them. -/
def checker (kind : CheckerKind) : Tool.Checker Stage Errand where
  check file := match kind with
    | .pool => .validate { file := file }
    | .nobody => .nothing (some (.success file []))
    | .stub => .stubCheck file
  reap d := match kind with
    | .pool => .stop { choice := .idle d }
    | .nobody => .nothing none
    | .stub => .stubReap
  shutdown := match kind with
    | .pool => .stop { choice := .all }
    | .nobody => .nothing none
    | .stub => .stubShutdown
  step := step
  cancel _ := cancel

end Errand

/-! ## The server -/

/-- What can be under way at a host. -/
inductive HostOp where
  | world (op : Op)
  | server (activity : Tool.Activity Errand)

namespace HostOp

/-- The state of a host. -/
abbrev State := Tool.Serving Stage

/-- One step. -/
def step (kind : CheckerKind) (now : Time) (s : State) : HostOp → Step State HostOp Unit
  | .world op =>
    ((op.step now s.rest.world).lift fun w => { s with rest := { s.rest with world := w } }).within
      .world fun s _ => .done s ()
  | .server a => (a.step (Errand.checker kind) now s).within .server fun s _ => .done s ()

/-- What a change has brought into being. -/
def spawned (kind : CheckerKind) (before after : State) : List HostOp :=
  (World.spawned before.rest.world after.rest.world).map .world ++
    (Tool.Activity.spawned (Errand.checker kind) before.server after.server).map .server

/-- The steps of everything at a host. -/
def machine (kind : CheckerKind) : Machine State HostOp Unit where
  step := step kind
  spawned := spawned kind
  cancel _ s _ := s

end HostOp

/-- A tool server in virtual time. -/
structure Host where
  kind : CheckerKind
  schedule : Schedule HostOp.State HostOp Unit

namespace Host

/-- A server that begins to run. -/
def launch (kind : CheckerKind) (server : Tool.Server) (stage : Stage) : Host :=
  let schedule := (Schedule.ofState ⟨server, stage⟩ : Schedule HostOp.State HostOp Unit)
  ⟨kind, schedule.spawnAll [.server .writing, .server .reading]⟩

/-- The server for a policy, that has begun to run. -/
def start (kind : CheckerKind) (policy : ServerPolicy) (stage : Stage) : Host :=
  launch kind (.ofPolicy policy) stage

def now (h : Host) : Time := h.schedule.now

def server (h : Host) : Tool.Server := h.schedule.state.server

def stage (h : Host) : Stage := h.schedule.state.rest

/-- Changes the server at once. -/
def act (h : Host) (f : Tool.Server → Tool.Server) : Host :=
  let s := h.schedule.state
  let m := HostOp.machine h.kind
  let schedule := h.schedule.setState m { s with server := f s.server }
  { h with schedule := schedule.settle m Schedule.maxSteps }

/-- Bytes are typed into the input. -/
def feed (h : Host) (bytes : List UInt8) : Host := h.act (·.feed bytes)

/-- Lets some time go by. -/
def sleep (h : Host) (d : Duration) : Host :=
  { h with schedule := (h.schedule.run (HostOp.machine h.kind) (.world (.sleep d))).1 }

/-- Closes the input and lets everything run until the server has stopped. -/
def finish (h : Host) : Host :=
  let h := h.act (·.closeInput)
  { h with schedule := h.schedule.runWhile (HostOp.machine h.kind) fun s => !s.server.stopped }

/-- The responses since this was asked last, with the time of each. -/
def takeOutput (h : Host) : Host × List (Time × Tool.Response) :=
  let s := h.schedule.state
  let s' := { s with server := { s.server with output := [] } }
  ({ h with schedule := { h.schedule with state := s' } }, s.server.output)

/-- What backends have seen since this was asked last, in the order of their launches. -/
def takeEvents (h : Host) : Host × List (Nat × Event) :=
  let s := h.schedule.state
  let w := s.rest.world
  ({ h with schedule := { h.schedule with
      state := { s with rest := { s.rest with world := { w with events := [] } } } } },
    w.events.mergeSort fun a b => a.1 ≤ b.1)

/-- What was asked of the stub since this was asked last: the files, and how often unused backends
were looked for. -/
def takeCalls (h : Host) : Host × List String × Nat :=
  let s := h.schedule.state
  let stub := s.rest.stub
  ({ h with schedule := { h.schedule with
      state := { s with rest := { s.rest with stub := { stub with calls := [], reaps := 0 } } } } },
    stub.calls, stub.reaps)

end Host

end DiagnosticBroker.Simulation
