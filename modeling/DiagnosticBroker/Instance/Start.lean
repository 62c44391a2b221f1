import DiagnosticBroker.Instance.Exchange

/-!
# Starting a backend

A launched backend is connected (`start`) and asked to initialize itself (`initialize`). Its answer is
kept, the instance counts as initialized, the backend is told so, and then the instance is ready. Each
of these is a step of its own: if anything else happens to the instance in between, the start fails.
-/

namespace DiagnosticBroker.Instance

/-- The name and version by which the client introduces itself. -/
def clientInfo : Wire.ProgramInfo := ⟨"langcheck", some "0.1.0"⟩

/-- What the backend is told in the first request, with the number of the client's own process (the
parameters in `initialize`). -/
def introduction (i : Instance) (clientProcess : Nat) : Wire.Initialize where
  processId := some clientProcess
  rootUri := i.roots.head?.map (Uri.ofPath i.collector.directory)
  capabilities := .diagnosticsOnly
  clientInfo := some clientInfo
  workspaceFolders :=
    if i.roots.isEmpty then none
    else
      some (i.roots.map fun root =>
        ⟨Uri.ofPath i.collector.directory root, (Path.fileName? root).getD root⟩)

/-- How far a start is. -/
inductive Start.Phase where
  | begin
  /-- The instance is about to be connected. -/
  | attach
  /-- The first request waits for its answer. -/
  | handshake (exchange : Exchange)
  /-- The answer is about to be kept. -/
  | record (result : Wire.InitializeResult)
  /-- The instance is about to count as initialized. -/
  | confirm
  /-- The backend is about to be told so. -/
  | announce
  /-- The instance is about to be ready. -/
  | complete

/-- The start of an instance with a launched backend. -/
structure Start where
  launch : Nat
  /-- Whether the backend is a process of its own. -/
  isProcess : Bool
  /-- The number of the client's process. -/
  clientProcess : Nat
  phase : Start.Phase := .begin

namespace Start

/-- Connects the instance and begins the first request (`start`, and `initialize` up to its
`request`). -/
def attach (i : Instance) (s : Start) : Step Instance Start (Except Fault Unit) :=
  let i := { i with process := if s.isProcess then some s.launch else none }.connect s.launch
  match Exchange.start i "initialize" (some (i.introduction s.clientProcess).encode.canonical) with
  | (i, .ok x) => .next i { s with phase := .handshake x }
  | (i, .error f) => .done i (.error f)

/-- What follows the answer to the first request. -/
def answered (i : Instance) (s : Start) : Answer → Step Instance Start (Except Fault Unit)
  | .error f => .done i (.error f)
  | .ok j =>
    match Wire.InitializeResult.decode j with
    | .error e => .done i (.error (.protocol e.message))
    | .ok r => .next i { s with phase := .record r }

/-- One step of a start: what `start` and `initialize` do from one place where something else may
happen to the next. -/
def step (now : Time) (i : Instance) (s : Start) : Step Instance Start (Except Fault Unit) :=
  match s.phase with
  | .begin => .next { i with lifecycle := .starting } { s with phase := .attach }
  | .attach => attach i s
  | .handshake x =>
    (x.step now i).within (fun x => { s with phase := .handshake x }) fun i a => answered i s a
  | .record r => .next { i with capabilities := some r } { s with phase := .confirm }
  | .confirm =>
    match i.advance .starting .initialized with
    | .ok i => .next i { s with phase := .announce }
    | .error f => .done i (.error f)
  | .announce =>
    match i.notify "initialized" (some (.obj [])) with
    | (i, .ok ()) => .next i { s with phase := .complete }
    | (i, .error f) => .done i (.error f)
  | .complete =>
    match i.advance .initialized .ready with
    | .ok i => .done i (.ok ())
    | .error f => .done i (.error f)

end Start

end DiagnosticBroker.Instance
