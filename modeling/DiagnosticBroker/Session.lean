import DiagnosticBroker.Collector.Wait
import DiagnosticBroker.DocumentText
import DiagnosticBroker.Pool.Execute

/-!
# Sessions

A session (`DocumentSession`) opens one document at one backend, waits for its diagnostics, and closes
it again. A session that is given up leaves its document to be closed by somebody else, unless its
closing has begun.

A `Round` is a whole session (`run_session`): open, wait, close. It can be given up between any two of
its steps. Silence of the backend can count as a document without diagnostics.
-/

namespace DiagnosticBroker

/-- A document that is open at a backend for one caller. -/
structure Session where
  /-- The index of the instance. -/
  index : Nat
  languageId : String
  /-- The right to wait for the version that was announced. -/
  waiter : Waiter
  /-- The diagnostics that were received last. -/
  diagnostics : Option (List Wire.Diagnostic) := none

namespace Session

def uri (s : Session) : String := s.waiter.uri

def version (s : Session) : Int := s.waiter.version

/-! ## Opening -/

/-- A session that is being opened. -/
structure Opening where
  index : Nat
  path : String
  languageId : String
  /-- The most bytes that the document may have. -/
  limit : Nat
  /-- The text, once it is read. -/
  text : Option String := none

/-- One step of opening a session (`open`): the file is read (`read_document`), and then, as soon as
it is its turn at the documents of the instance, the document is announced (`open_document`). -/
def Opening.step (files : FileTree) (now : Time) (p : Pool) (o : Opening) :
    Step Pool Opening (Except Fault Session) :=
  match o.text with
  | none =>
    match DocumentText.read files p.directory o.path o.limit with
    | .error f => .done p (.error f)
    | .ok text => .later p { o with text := some text }
  | some text =>
    match p.instance? o.index with
    | none => .blocked none
    | some x =>
      let (x, opened) := x.openDocument now (Uri.ofPath p.directory o.path) o.languageId text
      .done (p.setInstance o.index x) (opened.map fun v => ⟨o.index, o.languageId, v.2, none⟩)

/-! ## Waiting and closing -/

/-- A wait for the diagnostics of a session. -/
def wait (s : Session) (timeout settle : Duration) : Wait :=
  { waiter := s.waiter, timeout := timeout, settle := settle }

/-- One step of a wait on an instance. -/
def waitStep (now : Time) (p : Pool) (index : Nat) (w : Wait) : Step Pool Wait Wait.Outcome :=
  p.onInstance index fun x =>
    (w.step now x.collector).lift fun c => { x with collector := c }

/-- Keeps the outcome of a wait. -/
def keep (s : Session) : Wait.Outcome → Session
  | .ok ds => { s with diagnostics := some ds }
  | .error _ => s

/-- Closes the document of a session and gives its waiter back (`close_document`, when it gets at
the documents, and the end of `close`). -/
def close (p : Pool) (s : Session) : Pool :=
  p.modifyInstance s.index fun x => (x.closeDocument s.uri).1.releaseWaiter s.waiter

/-- Gives a session up without closing its document, which is left to be closed (`drop`, which
leaves that to a task of its own). -/
def drop (p : Pool) (s : Session) : Pool :=
  let p := p.modifyInstance s.index fun x => x.releaseWaiter s.waiter
  { p with leftOpen := p.leftOpen ++ [(s.index, s.uri)] }

end Session

/-- Closes the document that was left open as the one with a number (the task that `drop` leaves it
to). -/
def Pool.closeLeftOpen (p : Pool) (n : Nat) : Pool :=
  match p.leftOpen[n]? with
  | some (i, uri) => p.modifyInstance i fun x => (x.closeDocument uri).1
  | none => p

/-! ## Rounds -/

/-- How far a whole session is. -/
inductive Round where
  | opening (opening : Session.Opening)
  | waiting (session : Session) (wait : Wait)
  /-- The session counts as closed, and waits for the documents of the instance to close its own. -/
  | closing (session : Session) (outcome : Wait.Outcome)

namespace Round

/-- The outcome of a round, given the outcome of its wait: if silence is clean, a wait that nobody
answered means that there is nothing to report. -/
def outcomeOf (b : Budget) : Wait.Outcome → Wait.Outcome
  | .error (.timedOut t) => if b.silenceIsClean then .ok [] else .error (.timedOut t)
  | o => o

/-- One step of a round. -/
def step (files : FileTree) (now : Time) (p : Pool) : Round → Step Pool Round Wait.Outcome
  | .opening o =>
    (o.step files now p).within .opening fun p r =>
      match r with
      | .ok s => .next p (.waiting s (s.wait p.budget.diagnosticsTimeout p.budget.settle))
      | .error f => .done p (.error f)
  | .waiting s w =>
    (Session.waitStep now p s.index w).within (.waiting s) fun p o =>
      .next p (.closing (s.keep o) o)
  | .closing s o => .done (s.close p) (outcomeOf p.budget o)

/-- What is left when a round is given up. A document whose closing has begun is not closed again:
`close` sets `closed` before it waits for the documents, and `drop` does nothing then. -/
def cancel (p : Pool) : Round → Pool
  | .opening _ => p
  | .waiting s _ => s.drop p
  | .closing s _ => p.modifyInstance s.index fun x => x.releaseWaiter s.waiter

/-- Rounds for the document at a path, as work for a backend. -/
def work (files : FileTree) (path languageId : String) (limit : Nat) :
    Work Round (List Wire.Diagnostic) where
  begin _ i := .opening ⟨i, path, languageId, limit, none⟩
  step w p r := r.step files w.now p

end Round

end DiagnosticBroker
