import DiagnosticBroker.Budget
import DiagnosticBroker.Collector
import DiagnosticBroker.Registry
import DiagnosticBroker.Text.Numeral
import DiagnosticBroker.Wire.Frame
import DiagnosticBroker.Wire.Handshake

/-!
# One backend

An `Instance` is the client's side of one backend (`BackendInstance`): how far its life has come, the
frames queued for it, the requests that wait for an answer, the documents that are open, and the
diagnostics it publishes. A start connects it over a new `Link`, on which one writer sends the queued
frames (`write_loop`) and one reader takes in what the backend says (`read_loop`).

Everything here happens at once; what has to wait in between is put together from these operations
elsewhere.
-/

namespace DiagnosticBroker

/-- How far the life of a backend has come (`BackendState`). -/
inductive Lifecycle where
  | notStarted
  | starting
  | initialized
  | ready
  | degraded
  | terminated
deriving DecidableEq, Repr

namespace Lifecycle

def name : Lifecycle → String
  | notStarted => "not started"
  | starting => "starting"
  | initialized => "initialized"
  | ready => "ready"
  | degraded => "degraded"
  | terminated => "terminated"

/-- The position in the order of life. -/
def rank : Lifecycle → Nat
  | notStarted => 0
  | starting => 1
  | initialized => 2
  | ready => 3
  | degraded => 4
  | terminated => 5

/-- Whether the backend takes new work (`is_usable`). -/
def isUsable (l : Lifecycle) : Bool := l = ready

end Lifecycle

/-- A document that is open at a backend. -/
structure OpenDocument where
  /-- A number of 32 bits with a sign. -/
  version : Int
  /-- How many callers opened it and have not closed it, in 32 bits. -/
  references : Nat
deriving DecidableEq, Repr

/-! ## Links -/

/-- What the writer of a link is doing. -/
inductive Writing where
  | idle
  /-- A message is being written whose frame has `size` bytes. -/
  | frame (message : Wire.Message) (size : Nat)
  /-- A frame could not be delivered, and the requests that wait are about to be failed. -/
  | failing
  | ended

def Writing.isEnded : Writing → Bool
  | ended => true
  | _ => false

/-- What the reader of a link is doing. -/
inductive Reading where
  | idle
  /-- A response was read and is about to be handed to its request. -/
  | delivering (id : Wire.Id) (response : Wire.Response)
  /-- The stream is lost, and the requests that wait are about to be failed. -/
  | losing
  | ended

def Reading.isEnded : Reading → Bool
  | ended => true
  | _ => false

/-- A connection with a launched backend. -/
structure Link where
  /-- The number of the launch. -/
  launch : Nat
  /-- All frames that were ever queued, in order. -/
  frames : List Wire.Message := []
  /-- How many of them the writer has taken. -/
  taken : Nat := 0
  /-- Whether no further frame will be queued. -/
  sealed : Bool := false
  writer : Writing := .idle
  reader : Reading := .idle

/-! ## Instances -/

/-- The client's side of one backend. -/
structure Instance where
  backend : Backend
  budget : Budget
  /-- The directories that the backend is told to work in. -/
  roots : List String
  lifecycle : Lifecycle := .notStarted
  /-- The launch whose process belongs to this instance. -/
  process : Option Nat := none
  links : List Link := []
  /-- The link on which frames are queued. -/
  outgoing : Option Nat := none
  /-- The link whose writer has not been waited for. -/
  writer : Option Nat := none
  nextId : Nat := 1
  /-- The requests that wait for an answer. -/
  pending : List Nat := []
  /-- The answers that have not been looked at. -/
  answers : List (Nat × Wire.Response) := []
  documents : List (String × OpenDocument) := []
  collector : Collector
  capabilities : Option Wire.InitializeResult := none
  /-- The lines that the backend has written to the log. -/
  log : List Wire.LogLine := []

namespace Instance

/-- An instance that is not started. Relative paths start from `directory`. -/
def new (backend : Backend) (budget : Budget) (roots : List String) (directory : String) :
    Instance :=
  { backend := backend, budget := budget, roots := roots,
    collector := { retention := budget.retention, directory := directory } }

/-- The command line as text. -/
def commandText (i : Instance) : String := i.backend.command.text

/-- The fault of a request to a backend that is gone. -/
def gone (i : Instance) : Fault := .terminated i.commandText

/-! ## Lifecycle -/

/-- Moves on in the order of life, unless something else has happened to the backend (`advance`). -/
def advance (i : Instance) (start stop : Lifecycle) : Except Fault Instance :=
  if i.lifecycle = start then .ok { i with lifecycle := stop } else .error i.gone

/-- The backend is of no more use, unless it is stopped anyway (`mark_degraded`). -/
def markDegraded (i : Instance) : Instance :=
  match i.lifecycle with
  | .terminated => i
  | _ => { i with lifecycle := .degraded }

/-! ## Frames -/

/-- The link with an index. -/
def link? (i : Instance) (k : Nat) : Option Link := i.links[k]?

/-- Changes the link with an index. -/
def modifyLink (i : Instance) (k : Nat) (f : Link → Link) : Instance :=
  { i with links := i.links.modify k f }

/-- Whether the writer of a link has ended. -/
def writerEnded (i : Instance) (k : Nat) : Bool :=
  match i.link? k with
  | some l => l.writer.isEnded
  | none => true

/-- Queues a frame for the backend (`send`). -/
def send (i : Instance) (m : Wire.Message) : Instance × Except Fault Unit :=
  match i.outgoing with
  | none => (i, .error .notConnected)
  | some k =>
    if i.writerEnded k then (i.markDegraded, .error i.gone)
    else (i.modifyLink k fun l => { l with frames := l.frames ++ [m] }, .ok ())

/-- Queues a notification (`notify`). -/
def notify (i : Instance) (method : String) (params : Option Json) : Instance × Except Fault Unit :=
  i.send (.notification (.new method params))

/-- Lets the writer of a link end after the frames that are queued. -/
def sealLink (i : Instance) (k : Nat) : Instance :=
  i.modifyLink k fun l => { l with sealed := true }

/-- Connects the instance over a new link, on which frames are queued from now on (`start`, up to
`initialize`). -/
def connect (i : Instance) (launch : Nat) : Instance :=
  let i :=
    match i.outgoing with
    | some k => i.sealLink k
    | none => i
  { i with
    links := i.links ++ [{ launch := launch }]
    outgoing := some i.links.length
    writer := some i.links.length }

/-- Stops queuing frames. -/
def hangUp (i : Instance) : Instance :=
  match i.outgoing with
  | some k => { i.sealLink k with outgoing := none }
  | none => i

/-! ## Requests that wait -/

/-- The requests that wait are answered with an error (`fail_pending`). -/
def failPending (i : Instance) (error : Wire.ResponseError) : Instance :=
  { i with
    pending := []
    answers := i.answers ++ i.pending.map fun n => (n, .failure (some (.number n)) error) }

/-- The request that an id of a response names: the number itself, or a string that spells it
(`handle_message`). -/
def pendingFor? (i : Instance) : Wire.Id → Option Nat
  | .number n => i.pending.find? fun p => (p : Int) = n
  | .text s =>
    match Numeral.readU64? s with
    | some n => i.pending.find? (· = n)
    | none => none

/-- Hands a response to the request that waits for it, if there is one (`handle_message`). -/
def deliver (i : Instance) (id : Wire.Id) (r : Wire.Response) : Instance :=
  match i.pendingFor? id with
  | some n => { i with pending := i.pending.erase n, answers := i.answers ++ [(n, r)] }
  | none => i

/-! ## Documents -/

/-- The frame that announces a version of a document: opened if it is the first one, else
changed. -/
def announcement (uri languageId text : String) (version : Int) (isOpen : Bool) : Wire.Message :=
  if isOpen then
    .notification (.new Wire.DidChange.method
      (some (Wire.DidChange.mk uri version [text]).encode.canonical))
  else
    .notification (.new Wire.DidOpen.method
      (some (Wire.DidOpen.mk uri languageId version text).encode.canonical))

/-- Puts a document in the place of the one with the same address. -/
def putDocument (i : Instance) (uri : String) (d : OpenDocument) : Instance :=
  { i with documents := (uri, d) :: i.documents.filter fun e => e.1 ≠ uri }

/-- Opens a document, or announces its next version if it is open, and registers a waiter for that
version (`open_document`). The waiter is registered first, so that an answer at once is not missed.
The version and the number of callers start over after the last number of 32 bits, where a build
that checks for overflow would stop the caller. -/
def openDocument (i : Instance) (now : Time) (uri languageId text : String) :
    Instance × Except Fault (Int × Waiter) :=
  let known := i.documents.lookup uri
  let version := match known with
    | some d => Word.nextI32 d.version
    | none => 1
  let (collector, waiter) := i.collector.register now uri version known.isNone
  let (i, sent) :=
    { i with collector := collector }.send (announcement uri languageId text version known.isSome)
  match sent with
  | .error f => ({ i with collector := i.collector.release waiter }, .error f)
  | .ok () =>
    let references := match known with
      | some d => Word.nextU32 d.references
      | none => 1
    (i.putDocument uri ⟨version, references⟩, .ok (version, waiter))

/-- Gives back one opening of a document; the last one closes it (`close_document`). Tells whether
the backend was told so. -/
def closeDocument (i : Instance) (uri : String) : Instance × Bool :=
  match i.documents.lookup uri with
  | none => (i, false)
  | some d =>
    if d.references ≤ 1 then
      let i := { i with documents := i.documents.filter fun e => e.1 ≠ uri }
      let (i, sent) := i.notify Wire.DidClose.method (some (Wire.DidClose.mk uri).encode)
      (i, sent.isOk)
    else (i.putDocument uri { d with references := d.references - 1 }, false)

/-- The version of a document that is open (`document_version`). -/
def documentVersion (i : Instance) (uri : String) : Option Int :=
  (i.documents.lookup uri).map (·.version)

/-- Gives a waiter back. -/
def releaseWaiter (i : Instance) (w : Waiter) : Instance :=
  { i with collector := i.collector.release w }

end Instance

end DiagnosticBroker
