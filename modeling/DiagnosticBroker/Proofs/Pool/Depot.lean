import DiagnosticBroker.Pool.Execute
import DiagnosticBroker.Pool.Start
import DiagnosticBroker.Pool.Stop
import DiagnosticBroker.Proofs.Instance.Scene

/-!
# Everything that happens to a pool

A `Depot` is a pool together with all that is under way on it: the visitors who want a backend, work
with one, or stop some, and, beside each instance, whatever else its own clients and its backend do.
A `Depot.Event` is one step of any of these or of a start, from one waiting point to the next, or
time that passes, or the end of a launch. `Depot.act` says what an event does, and a `Depot.Run` is
any order of events, perhaps only such as have a property.

Nothing is said of memory that two processors see differently: one step follows the other.

Visitors are kept when they are served and when they give up, so that what is proved can speak of
the past.
-/

namespace DiagnosticBroker

/-! ## Visitors -/

/-- What somebody wants of a pool. -/
inductive Wish where
  /-- A ready instance. -/
  | ready (backend : Backend)
  /-- Work with a ready instance, again with another one if the backend dies. -/
  | work (backend : Backend)
  | stop (choice : Stop.Choice)

/-- How far a wish is. Work is known by the index of the instance that it is done with. -/
inductive Errand where
  | ready (ensure : Ensure)
  | work (execute : Execute Nat)
  | stop (stop : Stop)

/-- What came of a wish. -/
inductive Reply where
  /-- The index of the instance, or why there is none. Work that is done well has one, too. -/
  | served (result : StartResult)
  /-- How many instances were stopped. -/
  | stopped (count : Nat)

namespace Wish

/-- The command that a wish is about, unless it is about stopping. -/
def command? : Wish → Option Command
  | ready b => some b.command
  | work b => some b.command
  | stop _ => none

/-- A wish before its first step. -/
def errand : Wish → Errand
  | ready b => .ready { backend := b }
  | work b => .work (.start b)
  | stop choice => .stop { choice := choice }

/-- Whether backends are stopped that may be in use. -/
def isShutdown : Wish → Bool
  | stop (.command _) => true
  | stop .all => true
  | _ => false

end Wish

/-- Work that comes to a verdict at once. Whatever the work does to its instance before that, is
left to those who are beside the instance. -/
def Errand.workEnding (verdict : Except Fault Unit) : Work Nat Nat where
  begin _ i := i
  step _ p i := .done p (verdict.map fun _ => i)

/-- One step of an errand. A run of work that is under way ends with the verdict. -/
def Errand.step (w : Surroundings) (verdict : Except Fault Unit) (p : Pool) :
    Errand → Step Pool Errand Reply
  | .ready e => (e.step w p).within .ready fun p r => .done p (.served r)
  | .work x => (x.step (workEnding verdict) w p).within .work fun p r => .done p (.served r)
  | .stop s => (s.step w p).within .stop fun p n => .done p (.stopped n)

/-- How a visitor fares. -/
inductive Visitor.State where
  | busy (errand : Errand)
  | done (reply : Reply)
  /-- The visitor gave up when the errand was here. -/
  | gone (errand : Errand)

/-- Somebody who came to the pool. -/
structure Visitor where
  wish : Wish
  state : Visitor.State

/-! ## Depots -/

/-- A pool and all that is under way on it. -/
structure Depot where
  now : Time := 0
  pool : Pool
  /-- Whether launched backends are processes. -/
  isProcess : Bool
  /-- The number of the client's own process. -/
  clientProcess : Nat
  visitors : List Visitor := []
  /-- What is under way beside an instance, by its index; the first entry counts. -/
  scenes : List (Nat × Scene) := []

/-- One thing that can happen. Starts, visitors and instances are named by their indices. -/
inductive Depot.Event where
  /-- Time passes, on the clock and for the age of slots. -/
  | elapse (duration nanos : Nat)
  /-- A launch comes to an end. -/
  | land (launch : Nat) (outcome : LaunchOutcome)
  /-- A step of a start. -/
  | start (n : Nat) (exited : Nat → Bool)
  /-- Somebody comes with a wish. -/
  | visit (wish : Wish)
  /-- A step of a visitor's errand; `verdict` is that of the run of work that is under way. -/
  | go (n : Nat) (exited : Nat → Bool) (verdict : Except Fault Unit)
  | giveUp (n : Nat)
  /-- Something else happens to an instance. -/
  | beside (i : Nat) (event : Scene.Event)

namespace Depot

/-- A pool that nobody has come to. -/
def new (budget : Budget) (roots : List String) (directory : String) (isProcess : Bool)
    (clientProcess : Nat) : Depot where
  pool := { budget := budget, roots := roots, directory := directory }
  isProcess := isProcess
  clientProcess := clientProcess

def surroundings (s : Depot) (exited : Nat → Bool) : Surroundings :=
  ⟨s.now, exited, s.isProcess, s.clientProcess⟩

/-- What is under way beside an instance. Its start is none of that. -/
def sceneOf (s : Depot) (i : Nat) (x : Instance) : Scene :=
  match s.scenes.lookup i with
  | some t => { t with now := s.now, client := x, start := .abandoned }
  | none => { now := s.now, client := x, start := .abandoned }

def setVisitor (s : Depot) (n : Nat) (v : Visitor) (state : Visitor.State) : Depot :=
  { s with visitors := s.visitors.set n { v with state := state } }

/-- Whoever gives up lets go of the slots. -/
def letGo (p : Pool) : Errand → Pool
  | .stop ⟨_, _, .asking _⟩ => { p with held := false }
  | _ => p

/-- What an event does; `none` if it cannot happen now. -/
def act (s : Depot) : Event → Option Depot
  | .elapse d n =>
    some { s with now := s.now + d, pool := { s.pool with uptime := s.pool.uptime + n } }
  | .land l o =>
    match s.pool.launches[l]? with
    | some ⟨_, _, _, none⟩ => some { s with pool := s.pool.resolveLaunch l o }
    | _ => none
  | .start n exited =>
    match StartJob.step (s.surroundings exited) s.pool n with
    | .blocked _ => none
    | .next p _ => some { s with pool := p }
    | .later p _ => some { s with pool := p }
    | .done p _ => some { s with pool := p }
  | .visit wish => some { s with visitors := s.visitors ++ [⟨wish, .busy wish.errand⟩] }
  | .go n exited verdict => do
    let v ← s.visitors[n]?
    match v.state with
    | .busy e =>
      match e.step (s.surroundings exited) verdict s.pool with
      | .blocked _ => none
      | .next p e => some ({ s with pool := p }.setVisitor n v (.busy e))
      | .later p e => some ({ s with pool := p }.setVisitor n v (.busy e))
      | .done p r => some ({ s with pool := p }.setVisitor n v (.done r))
    | _ => none
  | .giveUp n => do
    let v ← s.visitors[n]?
    match v.state with
    | .busy e => some ({ s with pool := letGo s.pool e }.setVisitor n v (.gone e))
    | _ => none
  | .beside i e => do
    let x ← s.pool.instance? i
    let t ← (s.sceneOf i x).act e
    some { s with pool := s.pool.setInstance i t.client, scenes := (i, t) :: s.scenes }

/-- One event after the other. -/
def follow (s : Depot) : List Event → Option Depot
  | [] => some s
  | e :: es => (s.act e).bind fun s => s.follow es

/-- What can come of a depot by events that have a property where they happen. -/
inductive Run (P : Depot → Event → Prop) (s : Depot) : Depot → Prop where
  | refl : Run P s s
  | step {t u : Depot} {e : Event} (h : Run P s t) (he : P t e) (ha : t.act e = some u) : Run P s u

/-- What can come of a pool that nobody has come to. -/
def Reachable (P : Depot → Event → Prop) (s : Depot) : Prop :=
  ∃ budget roots directory isProcess clientProcess,
    Run P (new budget roots directory isProcess clientProcess) s

variable {P Q : Depot → Event → Prop} {s t u : Depot}

theorem Run.trans (h : Run P s t) (h' : Run P t u) : Run P s u := by
  induction h' with
  | refl => exact h
  | step _ he ha ih => exact ih.step he ha

theorem Run.mono (h : Run P s t) (hPQ : ∀ s e, P s e → Q s e) : Run Q s t := by
  induction h with
  | refl => exact .refl
  | step _ he ha ih => exact ih.step (hPQ _ _ he) ha

theorem Run.of_follow {es : List Event} (hes : ∀ s, ∀ e ∈ es, P s e) (h : s.follow es = some t) :
    Run P s t := by
  induction es generalizing s with
  | nil =>
    cases h
    exact .refl
  | cons e es ih =>
    obtain ⟨s₁, ha, h⟩ := Option.bind_eq_some_iff.mp h
    have hfirst : Run P s s₁ := Run.refl.step (hes s e (by simp)) ha
    exact hfirst.trans (ih (fun s e he => hes s e (by simp [he])) h)

theorem Reachable.run (h : Reachable P s) (hr : Run P s t) : Reachable P t := by
  obtain ⟨budget, roots, directory, isProcess, clientProcess, h⟩ := h
  exact ⟨budget, roots, directory, isProcess, clientProcess, h.trans hr⟩

theorem Reachable.mono (h : Reachable P s) (hPQ : ∀ s e, P s e → Q s e) : Reachable Q s := by
  obtain ⟨budget, roots, directory, isProcess, clientProcess, h⟩ := h
  exact ⟨budget, roots, directory, isProcess, clientProcess, h.mono hPQ⟩

/-- What can come of a reachable depot in any way is reachable in some way. -/
theorem Reachable.runs (h : Reachable P s) (hr : Run Q s t) : Reachable (fun _ _ => True) t :=
  (h.mono fun _ _ _ => trivial).run (hr.mono fun _ _ _ => trivial)

/-- What holds at the beginning and is kept by every event, holds all the time. -/
theorem Reachable.induct {I : Depot → Prop}
    (hnew : ∀ budget roots directory isProcess clientProcess,
      I (new budget roots directory isProcess clientProcess))
    (hact : ∀ s e t, Reachable P s → I s → P s e → s.act e = some t → I t)
    (h : Reachable P s) : I s := by
  obtain ⟨budget, roots, directory, isProcess, clientProcess, h⟩ := h
  induction h with
  | refl => exact hnew _ _ _ _ _
  | step h he ha ih => exact hact _ _ _ ⟨budget, roots, directory, isProcess, clientProcess, h⟩ ih he ha

/-! ## A depot to try things in -/

/-- A backend. -/
def python : Backend := ⟨["pylsp"], [".py"], "python"⟩

/-- Nobody has come yet. -/
def sample : Depot := .new (.ofSettings {}) ["/repo"] "/" true 0

/-- A step of a visitor, whose work goes well; no process ends by itself. -/
def go (n : Nat) : Event := .go n (fun _ => false) (.ok ())

/-- A step of a start. -/
def advance (n : Nat) : Event := .start n fun _ => false

/-- What a backend answers to the first request. -/
def greeting : Wire.Message := .response (.success (.number 1) (.obj [("capabilities", .obj [])]))

/-- All of a start up to where its slot is settled, if all starts before it had one launch and one
instance each. -/
def preparing (n : Nat) : List Event :=
  [advance n, .land n .connected] ++ List.replicate 4 (advance n) ++
    [.beside n (.receive greeting), .beside n .read] ++ List.replicate 5 (advance n)

/-- All of a start. -/
def bringing (n : Nat) : List Event := preparing n ++ [advance n]

end Depot

end DiagnosticBroker
