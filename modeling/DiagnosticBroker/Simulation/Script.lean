import DiagnosticBroker.Registry
import DiagnosticBroker.Step
import DiagnosticBroker.Wire.Document
import DiagnosticBroker.Wire.Frame

/-!
# Scripted backends

A `Script` says what a backend does: how its launch goes, and which actions follow each message. A
`Peer` is such a backend at the other end of a link. It reads a message only when it has done
everything that the one before asked for, and keeps a list of what it has seen.
-/

namespace DiagnosticBroker.Simulation

/-! ## Scripts -/

/-- The version that a publish names. -/
inductive PublishedVersion where
  /-- The version of the document in the message that is being handled. -/
  | same
  | value (json : Json)

/-- One action of a scripted backend. -/
inductive Action where
  /-- Answers with a result, under the id of the request or another one; `quoted` gives the id as
  its text in a string. -/
  | reply (result : Json) (id? : Option Json) (quoted : Bool)
  /-- Answers with an error. -/
  | replyError (error : Json) (id? : Option Json) (quoted : Bool)
  /-- Publishes diagnostics, for the document in the message that is being handled or another
  one. -/
  | publish (diagnostics : Json) (uri? : Option Json) (version? : Option PublishedVersion)
  | send (message : Json)
  /-- Writes bytes without a frame. -/
  | raw (bytes : List UInt8)
  | sleep (duration : Duration)
  /-- Reads its input to the end, and writes all of it back if `echo` says so. -/
  | drain (echo : Bool)
  /-- Reads its input up to a line that holds the bytes `part`; if there is none, it leaves out its
  next `skip` actions. Of a line that is not yet whole it has read the bytes `line`, backwards. -/
  | seek (part line : List UInt8) (skip : Nat)
  /-- The process ends, and what it has started goes on. -/
  | detach
  /-- Closes the stream. -/
  | close

/-- What a backend does. -/
structure Script where
  /-- How long its launch takes. -/
  launchDelay : Duration := .zero
  /-- Why its launch fails, if it does. -/
  failure : Option Fault := none
  /-- Whether its launch dies. -/
  crashes : Bool := false
  /-- What it does before it reads anything. -/
  opening : List Action := []
  /-- For each method what follows its first message, its second one, and so on; the last
  repeats. -/
  rules : List (String × List (List Action)) := []

instance : Inhabited Script := ⟨{}⟩

/-- The element with an index, or the last one if there are fewer. -/
def nthOrLast {α : Type} (xs : List α) (n : Nat) : Option α := (xs[n]?).or xs.getLast?

namespace Script

/-- What follows a message that has no rule. -/
def byDefault : Wire.Message → List Action
  | .request r =>
    if r.method = "initialize" then [.reply (.obj [("capabilities", .obj [])]) none false]
    else [.reply .null none false]
  | .notification n => if n.method = "exit" then [.close] else []
  | .response _ => []

/-- What follows the message with a method that is the `n`-th one, counted from zero. -/
def actions (s : Script) (method : String) (n : Nat) (m : Wire.Message) : List Action :=
  match s.rules.lookup method with
  | some occurrences => (nthOrLast occurrences n).getD []
  | none => byDefault m

end Script

/-! ## What backends see -/

/-- What a scripted backend, or its launch, has seen. -/
inductive Event where
  | launched (command : Command) (workdir : Option String)
  | request (request : Wire.Request)
  | notification (notification : Wire.Notification)
  | response (response : Wire.Response)
  /-- It closed its stream. -/
  | closed
  /-- The client closed the stream. -/
  | ended
  /-- The client has closed the stream that it wanted to write to. -/
  | writeFailed

/-- The event of reading a message. -/
def Event.ofMessage : Wire.Message → Event
  | .request r => .request r
  | .notification n => .notification n
  | .response r => .response r

/-! ## Peers -/

/-- What a peer is doing. -/
inductive Peer.Phase where
  | reading
  /-- It has these actions left to do because of a message. -/
  | acting (actions : List Action) (cause : Option Wire.Message)
  | sleeping (deadline : Time) (actions : List Action) (cause : Option Wire.Message)
  | gone

/-- A scripted backend at the other end of a link. -/
structure Peer where
  script : Script
  /-- The messages that were written to it and that it has not read, each with its size in bytes. -/
  inbox : List (Wire.Message × Nat) := []
  /-- Whether the client has closed its input. -/
  inputClosed : Bool := false
  /-- The bytes that it has written and that the client has not read. -/
  output : List UInt8 := []
  /-- Whether nobody can read what it writes. -/
  outputClosed : Bool := false
  /-- How many messages it has read with each method. -/
  counts : List (String × Nat) := []
  /-- Whether the process has ended and what it has started goes on. -/
  isDetached : Bool := false
  phase : Peer.Phase

namespace Peer

/-- The peer of a launch that has succeeded. -/
def ofScript (s : Script) : Peer :=
  { script := s, phase := if s.opening.isEmpty then .reading else .acting s.opening none }

def isGone (p : Peer) : Bool :=
  match p.phase with
  | .gone => true
  | _ => false

/-- Whether the process of a peer has ended. -/
def hasExited (p : Peer) : Bool := p.isGone || p.isDetached

/-- How many bytes the stream to a peer holds. -/
def capacity : Nat := 65536

/-- Whether a message of a size can be written to the peer as a whole. -/
def accepts (p : Peer) (size : Nat) : Bool :=
  match p.phase, p.inbox with
  | .reading, [] => true
  | _, inbox => inbox.foldl (fun n e => n + e.2) size ≤ capacity

/-- A message arrives. It is read back from its frame, so members that are null may be lost. -/
def receive (p : Peer) (m : Wire.Message) (size : Nat) : Peer :=
  let m := match Wire.Message.decode m.encode with
    | .ok m => m
    | .error _ => m
  { p with inbox := p.inbox ++ [(m, size)] }

/-- The parameters of a message that could be a document's. -/
def paramsOf : Option Wire.Message → Json
  | some (.request r) => r.params.getD .null
  | some (.notification n) => n.params.getD .null
  | _ => .null

/-- A member of the document that a message is about. -/
def documentMember? (cause : Option Wire.Message) (name : String) : Option Json :=
  ((paramsOf cause).get? "textDocument").bind (Json.get? name)

/-- The id under which a message is answered. -/
def answerId (cause : Option Wire.Message) (id? : Option Json) (quoted : Bool) : Json :=
  let id := match id?, cause with
    | some j, _ => j
    | none, some (.request r) => r.id.encode
    | none, _ => .null
  if quoted then .str id.text else id

/-- A message that answers a request. -/
def answer (cause : Option Wire.Message) (id? : Option Json) (quoted : Bool) (name : String)
    (content : Json) : Json :=
  .obj [("jsonrpc", .str Wire.version), ("id", answerId cause id? quoted), (name, content)]

/-- A message that publishes diagnostics. -/
def publication (cause : Option Wire.Message) (diagnostics : Json) (uri? : Option Json)
    (version? : Option PublishedVersion) : Json :=
  let version := match version? with
    | none => none
    | some .same => some ((documentMember? cause "version").getD .null)
    | some (.value j) => some j
  .obj [("jsonrpc", .str Wire.version), ("method", .str Wire.Publish.method),
    ("params", .objOf [some ("uri", (uri?.or (documentMember? cause "uri")).getD .null),
      some ("diagnostics", diagnostics), version.map fun v => ("version", v)])]

/-- The bytes that an action writes. -/
def written (cause : Option Wire.Message) : Action → List UInt8
  | .reply result id? quoted => Wire.Frame.ofJson (answer cause id? quoted "result" result)
  | .replyError error id? quoted => Wire.Frame.ofJson (answer cause id? quoted "error" error)
  | .publish ds uri? version? => Wire.Frame.ofJson (publication cause ds uri? version?)
  | .send message => Wire.Frame.ofJson message
  | .raw bytes => bytes
  | .sleep _ => []
  | .drain _ => []
  | .seek _ _ _ => []
  | .detach => []
  | .close => []

/-- Whether some bytes stand in a line. -/
def holds (part : List UInt8) : List UInt8 → Bool
  | [] => part.isEmpty
  | b :: line => part.isPrefixOf (b :: line) || holds part line

/-- Looks for bytes in the lines that are read: `none` if one of them holds the bytes, else the
last line, backwards, which is not yet whole. -/
def seekLine (part : List UInt8) : List UInt8 → List UInt8 → Option (List UInt8)
  | line, [] => some line
  | line, b :: rest =>
    if b ≠ 10 then seekLine part (b :: line) rest
    else if holds part line.reverse then none
    else seekLine part [] rest

/-- The peer reads a message. -/
def read (p : Peer) (m : Wire.Message) (inbox : List (Wire.Message × Nat)) : Peer :=
  let p := { p with inbox := inbox }
  let method? := match m with
    | .request r => some r.method
    | .notification n => some n.method
    | .response _ => none
  match method? with
  | none => p
  | some method =>
    let n := (p.counts.lookup method).getD 0
    { p with
      counts := (method, n + 1) :: p.counts.filter fun c => c.1 ≠ method
      phase := .acting (p.script.actions method n m) (some m) }

/-- One step of a peer, with what it has seen. -/
def step (now : Time) (p : Peer) : Step Peer (List Event) Unit :=
  match p.phase with
  | .gone => .done p ()
  | .reading =>
    match p.inbox with
    | (m, _) :: inbox => .next (p.read m inbox) [.ofMessage m]
    | [] => if p.inputClosed then .next { p with phase := .gone } [.ended] else .blocked none
  | .acting [] _ => .next { p with phase := .reading } []
  | .acting (.sleep d :: rest) cause =>
    .next { p with phase := .sleeping (deadlineAfter now d) rest cause } []
  | .acting (.drain echo :: rest) cause =>
    match p.inbox with
    | (m, _) :: inbox =>
      let written := if echo then Wire.Frame.ofMessage m else []
      .next { p with inbox := inbox, output := p.output ++ written } []
    | [] =>
      if p.inputClosed then .next { p with phase := .acting rest cause } [] else .blocked none
  | .acting (.seek part line skip :: rest) cause =>
    match p.inbox with
    | (m, _) :: inbox =>
      match seekLine part line (Wire.Frame.ofMessage m) with
      | none => .next { p with inbox := inbox, phase := .acting rest cause } []
      | some line =>
        .next { p with inbox := inbox, phase := .acting (.seek part line skip :: rest) cause } []
    | [] =>
      if p.inputClosed then
        let rest := if holds part line.reverse then rest else rest.drop skip
        .next { p with phase := .acting rest cause } []
      else .blocked none
  | .acting (.detach :: rest) cause =>
    .next { p with isDetached := true, phase := .acting rest cause } []
  | .acting (.close :: _) _ => .next { p with phase := .gone } [.closed]
  | .acting (a :: rest) cause =>
    if p.outputClosed then .next { p with phase := .gone } [.writeFailed]
    else .next { p with output := p.output ++ written cause a, phase := .acting rest cause } []
  | .sleeping deadline rest cause =>
    if deadline ≤ now then .next { p with phase := .acting rest cause } []
    else .blocked (some deadline)

end Peer

end DiagnosticBroker.Simulation
