import DiagnosticBroker.Collector.Wait
import DiagnosticBroker.Proofs.Instance.Activity
import DiagnosticBroker.Proofs.Instance.Documents

/-!
# Everything that happens to one instance

A `Scene` is an instance together with all that is under way on it: its one start, the requests and
shutdowns that were begun, and the holders of waiters. An `Event` is one step of any of these, or of
the reader or the writer of the link, or an opening or a closing of a document, and `Scene.act` says
what it does; whatever the order of the events, it is a run. A run may be restricted to events with
a property.

Holders are kept after their waiter is given back, and the openings and closings of documents are
all recorded, so that what is proved can speak of the past.
-/

namespace DiagnosticBroker

/-! ## Scenes -/

/-- How far an operation is that was begun. -/
inductive Task (ρ α : Type) where
  | running (rest : ρ)
  | ended (result : α)
  /-- Whoever began it has given it up. -/
  | abandoned

/-- The state and the operation after one step, if there is anything to do. -/
def Task.advance {σ ρ α : Type} (step : ρ → Step σ ρ α) : Task ρ α → Option (σ × Task ρ α)
  | .running r =>
    match step r with
    | .blocked _ => none
    | .next st r => some (st, .running r)
    | .later st r => some (st, .running r)
    | .done st a => some (st, .ended a)
  | _ => none

/-- How far an operation is that goes on. -/
def Task.rest? {ρ α : Type} : Task ρ α → Option ρ
  | .running r => some r
  | _ => none

/-- What the holder of a waiter is doing. -/
inductive Holder.Phase where
  | idle
  | waiting (wait : Wait)
  /-- The waiter was given back. -/
  | dropped

/-- Somebody who was given a waiter. -/
structure Holder where
  waiter : Waiter
  /-- How many announcements of the document came before the one that is waited for. -/
  position : Nat
  /-- Whether the stream was lost already when the document was opened. -/
  isLate : Bool
  phase : Holder.Phase := .idle

namespace Holder

/-- Whether the waiter is still held. -/
def isLive (h : Holder) : Bool :=
  match h.phase with
  | .dropped => false
  | _ => true

end Holder

/-- An opening that succeeded, or a closing. -/
inductive Call where
  | opened (uri : String) (version : Int)
  /-- `told` tells whether the backend was told. -/
  | closed (uri : String) (told : Bool)
deriving DecidableEq, Repr

/-- An instance and all that is under way on it. -/
structure Scene where
  now : Time := 0
  client : Instance
  start : Task Instance.Start (Except Fault Unit)
  requests : List (Task Instance.Exchange Instance.Answer) := []
  shutdowns : List (Task Instance.Shutdown Unit) := []
  holders : List Holder := []
  calls : List Call := []

/-- One thing that can happen. Operations and holders are named by their indices. -/
inductive Scene.Event where
  | elapse (duration : Nat)
  /-- A step of the start. -/
  | start
  /-- A request begins. -/
  | ask (method : String) (params : Option Json)
  | exchange (n : Nat)
  | cancel (n : Nat)
  /-- A shutdown begins. -/
  | stop
  | shutdown (n : Nat) (exited : Nat → Bool)
  | leave (n : Nat)
  | opens (uri languageId text : String)
  | closes (uri : String)
  /-- A waiter is given back. -/
  | drop (n : Nat)
  /-- A wait begins. -/
  | wait (n : Nat) (timeout settle : Duration)
  /-- A step of a wait. -/
  | look (n : Nat)
  /-- A wait is given up, but not its waiter. -/
  | turnAway (n : Nat)
  /-- The reader has read a message. -/
  | receive (message : Wire.Message)
  /-- The reader has come to the end of the stream, or to something unreadable. -/
  | lose
  /-- The reader goes on with what it is doing. -/
  | read
  /-- The writer takes a frame. -/
  | take
  | written
  /-- A frame could not be written. -/
  | fail
  /-- The writer goes on with what it is doing after that. -/
  | failFrames
  /-- The writer has written everything that will ever be queued. -/
  | finish

namespace Scene

/-- An instance that is about to be started. -/
def new (backend : Backend) (budget : Budget) (roots : List String) (directory : String)
    (launch : Nat) (isProcess : Bool) (clientProcess : Nat) : Scene where
  client := .new backend budget roots directory
  start := .running { launch := launch, isProcess := isProcess, clientProcess := clientProcess }

/-- The wait of a holder, after one step. -/
def look (s : Scene) (w : Wait) : Option Holder.Phase :=
  match w.step s.now s.client.collector with
  | .blocked _ => none
  | .next _ w => some (.waiting w)
  | .later _ w => some (.waiting w)
  | .done _ _ => some .idle

/-- What the holder with a number does next. -/
def setHolder (s : Scene) (n : Nat) (h : Holder) (p : Holder.Phase) : Scene :=
  { s with holders := s.holders.set n { h with phase := p } }

/-- Changes the instance through its link, if it has one. -/
def onLink (s : Scene) (f : Link → Option Instance) : Option Scene :=
  match s.client.link? 0 with
  | some l => (f l).map fun i => { s with client := i }
  | none => none

/-- What an event does; `none` if it cannot happen now. -/
def act (s : Scene) : Event → Option Scene
  | .elapse d => some { s with now := s.now + d }
  | .start =>
    (s.start.advance fun x => x.step s.now s.client).map fun (i, t) =>
      { s with client := i, start := t }
  | .ask method params =>
    match Instance.Exchange.start s.client method params with
    | (i, .ok x) => some { s with client := i, requests := s.requests ++ [.running x] }
    | (i, .error f) => some { s with client := i, requests := s.requests ++ [.ended (.error f)] }
  | .exchange n => do
    let t ← s.requests[n]?
    let (i, t) ← t.advance fun x => x.step s.now s.client
    some { s with client := i, requests := s.requests.set n t }
  | .cancel n =>
    match s.requests[n]? with
    | some (.running _) => some { s with requests := s.requests.set n .abandoned }
    | _ => none
  | .stop => some { s with shutdowns := s.shutdowns ++ [.running .begin] }
  | .shutdown n exited => do
    let t ← s.shutdowns[n]?
    let (i, t) ← t.advance fun x => x.step exited s.now s.client
    some { s with client := i, shutdowns := s.shutdowns.set n t }
  | .leave n =>
    match s.shutdowns[n]? with
    | some (.running _) => some { s with shutdowns := s.shutdowns.set n .abandoned }
    | _ => none
  | .opens uri languageId text =>
    match s.client.openDocument s.now uri languageId text with
    | (i, .ok (version, waiter)) =>
      some { s with
        client := i
        holders := s.holders ++ [{
          waiter := waiter
          position := (s.client.announcements uri).length
          isLate := s.client.isLost }]
        calls := s.calls ++ [.opened uri version] }
    | (i, .error _) => some { s with client := i }
  | .closes uri =>
    match s.client.closeDocument uri with
    | (i, told) => some { s with client := i, calls := s.calls ++ [.closed uri told] }
  | .drop n => do
    let h ← s.holders[n]?
    if h.isLive then
      some ({ s with client := s.client.releaseWaiter h.waiter }.setHolder n h .dropped)
    else none
  | .wait n timeout settle => do
    let h ← s.holders[n]?
    match h.phase with
    | .idle => some (s.setHolder n h (.waiting ⟨h.waiter, timeout, settle, .begin⟩))
    | _ => none
  | .look n => do
    let h ← s.holders[n]?
    match h.phase with
    | .waiting w => (s.look w).map fun p => s.setHolder n h p
    | _ => none
  | .turnAway n => do
    let h ← s.holders[n]?
    match h.phase with
    | .waiting _ => some (s.setHolder n h .idle)
    | _ => none
  | .receive m =>
    s.onLink fun l =>
      match l.reader with
      | .idle => some (s.client.receive s.now 0 m)
      | _ => none
  | .lose =>
    s.onLink fun l =>
      match l.reader with
      | .idle => some (s.client.loseStream 0)
      | _ => none
  | .read =>
    s.onLink fun l =>
      match l.reader with
      | .delivering id r => some (s.client.readerStep 0 (.delivering id r))
      | .losing => some (s.client.readerStep 0 .losing)
      | _ => none
  | .take =>
    s.onLink fun l =>
      match l.writer with
      | .idle => (Instance.nextFrame? l).map (s.client.takeFrame 0)
      | _ => none
  | .written =>
    s.onLink fun l =>
      match l.writer with
      | .frame _ _ => some (s.client.setWriter 0 .idle)
      | _ => none
  | .fail =>
    s.onLink fun l =>
      match l.writer with
      | .frame _ _ => some (s.client.failWriter 0)
      | _ => none
  | .failFrames =>
    s.onLink fun l =>
      match l.writer with
      | .failing => some (s.client.failFrames 0)
      | _ => none
  | .finish =>
    s.onLink fun l =>
      match l.writer, Instance.nextFrame? l with
      | .idle, none => if l.sealed then some (s.client.setWriter 0 .ended) else none
      | _, _ => none

/-- One event after the other. -/
def run (s : Scene) : List Event → Option Scene
  | [] => some s
  | e :: es => (s.act e).bind fun s => s.run es

/-- What can come of a run all of whose events have a property. -/
inductive Reachable (P : Scene → Event → Prop) : Scene → Prop where
  | new (backend : Backend) (budget : Budget) (roots : List String) (directory : String)
      (launch : Nat) (isProcess : Bool) (clientProcess : Nat) :
      Reachable P (.new backend budget roots directory launch isProcess clientProcess)
  | step {s s' : Scene} {e : Event} (h : Reachable P s) (he : P s e) (ha : s.act e = some s') :
      Reachable P s'

theorem Reachable.of_run {P : Scene → Event → Prop} {s s' : Scene} {es : List Event}
    (h : Reachable P s) (hes : ∀ s, ∀ e ∈ es, P s e) (hr : s.run es = some s') :
    Reachable P s' := by
  induction es generalizing s with
  | nil =>
    cases hr
    exact h
  | cons e es ih =>
    obtain ⟨s₁, ha, hr⟩ := Option.bind_eq_some_iff.mp hr
    exact ih (h.step (hes s e (by simp)) ha) (fun s e he => hes s e (by simp [he])) hr

/-- A backend that is about to be started. -/
def sample : Scene :=
  .new ⟨["fake-ls"], [".py"], "python"⟩ (.ofSettings {}) ["/repo"] "/" 0 false 0

/-- A run that connects the backend. -/
def connecting : List Event := [.start, .start]

end Scene

end DiagnosticBroker
