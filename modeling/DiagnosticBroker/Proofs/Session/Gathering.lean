import DiagnosticBroker.Proofs.Instance.Holdings
import DiagnosticBroker.Proofs.Validation.Moves

/-!
# Sessions side by side

A `Gathering` is any number of guests, each of whom has one session at an instance of the same pool,
together with everything else that happens to the pool. A session waits for its file, for the documents
of the instance to open its own, for diagnostics, and for the documents again to close it (`open`,
`wait` and `close` of a `DocumentSession`). It can be given up wherever it waits. Somebody else may be
at the documents whenever a session comes to them, so any event can come before each of its steps.

A session that is given up leaves its document to be closed by somebody else, unless its closing has
begun: `close` sets `closed` before it waits for the documents, and `drop` does nothing once it is set.
Such a guest is lost.

What becomes of the document of each guest is marked down, so that what is proved can speak of the past.

Results:
* `happens_of_act`: what an event can do.
-/

namespace DiagnosticBroker

/-! ## Guests -/

/-- What is marked down of a document of an instance. -/
inductive Mark where
  | opened (index : Nat) (uri : String)
  | closed (index : Nat) (uri : String)
deriving DecidableEq

/-- What is marked down of a step of a round, given what it comes to. -/
def Round.marks (r : Round) (t : Task Round Wait.Outcome) : List Mark :=
  match r, t with
  | .opening _, .running (.waiting s _) => [.opened s.index s.uri]
  | .closing s _, _ => [.closed s.index s.uri]
  | _, _ => []

/-- How far a guest is. -/
inductive Guest.State where
  /-- The session is under way. -/
  | busy (round : Round)
  | ended (outcome : Wait.Outcome)
  /-- The session was given up, and the document that was left open as the one with a number is still to
  be closed. -/
  | leaving (number : Nat)
  /-- The session was given up, and nothing is left to be done. -/
  | gone
  /-- The session was given up while it waited to close its document, which nobody closes now. -/
  | lost

/-- Somebody who has a session. -/
structure Guest where
  state : Guest.State
  marks : List Mark := []

/-- Whether nothing is left to be done for a guest. -/
def Guest.isOver (g : Guest) : Bool :=
  match g.state with
  | .ended _ => true
  | .gone => true
  | .lost => true
  | _ => false

/-- Whether the session of a guest was given up while it waited to close its document. -/
def Guest.isLost (g : Guest) : Bool :=
  match g.state with
  | .lost => true
  | _ => false

/-! ## Gatherings -/

/-- Any number of sessions, and all that happens meanwhile. -/
structure Gathering where
  depot : Depot
  files : FileTree
  guests : List Guest := []

/-- One thing that can happen. Guests are named by their indices. -/
inductive Gathering.Event where
  /-- Somebody comes to have a session at an instance. -/
  | arrive (index : Nat) (path languageId : String) (limit : Nat)
  /-- A step of a session. -/
  | step (n : Nat)
  | giveUp (n : Nat)
  /-- The document that a guest has left open is closed. -/
  | tidy (n : Nat)
  /-- The files change. -/
  | edit (files : FileTree)
  /-- Something else happens to the pool. -/
  | other (event : Depot.Event)

namespace Gathering

/-- Nobody has come yet. -/
def new (files : FileTree) (depot : Depot) : Gathering := { depot := depot, files := files }

def setGuest (s : Gathering) (n : Nat) (p : Pool) (g : Guest) : Gathering :=
  { s with depot := { s.depot with pool := p }, guests := s.guests.set n g }

/-- What is left to be done when a session is given up that has come to a round. -/
def leave (p : Pool) : Round → Guest.State
  | .opening _ => .gone
  | .waiting _ _ => .leaving p.leftOpen.length
  | .closing _ _ => .lost

/-- What an event does; `none` if it cannot happen now. -/
def act (s : Gathering) : Event → Option Gathering
  | .arrive i path languageId limit =>
    match s.depot.pool.instance? i with
    | some _ =>
      let guest := { state := .busy (.opening ⟨i, path, languageId, limit, none⟩) }
      some { s with guests := s.guests ++ [guest] }
    | none => none
  | .step n => do
    let g ← s.guests[n]?
    match g.state with
    | .busy r =>
      match r.step s.files s.depot.now s.depot.pool with
      | .blocked _ => none
      | .next p r' => some (s.setGuest n p ⟨.busy r', g.marks ++ r.marks (.running r')⟩)
      | .later p r' => some (s.setGuest n p ⟨.busy r', g.marks ++ r.marks (.running r')⟩)
      | .done p o => some (s.setGuest n p ⟨.ended o, g.marks ++ r.marks (.ended o)⟩)
    | _ => none
  | .giveUp n => do
    let g ← s.guests[n]?
    match g.state with
    | .busy r =>
      some (s.setGuest n (r.cancel s.depot.pool) { g with state := leave s.depot.pool r })
    | _ => none
  | .tidy n => do
    let g ← s.guests[n]?
    match g.state with
    | .leaving k =>
      let marks := (s.depot.pool.leftOpen[k]?.map fun d => Mark.closed d.1 d.2).toList
      some (s.setGuest n (s.depot.pool.closeLeftOpen k) ⟨.gone, g.marks ++ marks⟩)
    | _ => none
  | .edit t => some { s with files := t }
  | .other e => (s.depot.act e).map fun d => { s with depot := d }

/-- One event after the other. -/
def follow (s : Gathering) : List Event → Option Gathering
  | [] => some s
  | e :: es => (s.act e).bind fun s => s.follow es

/-- What can come of a gathering by events that have a property. -/
inductive Run (P : Event → Prop) (s : Gathering) : Gathering → Prop where
  | refl : Run P s s
  | step {t u : Gathering} {e : Event} (h : Run P s t) (he : P e) (ha : t.act e = some u) : Run P s u

/-- Nobody but the guests opens or closes documents. -/
def Event.isQuiet : Event → Bool
  | .other (.beside _ e) => !e.isAnnouncement
  | _ => true

/-- What can come of a pool where nobody but guests opens or closes documents. -/
def Reachable (s : Gathering) : Prop :=
  ∃ files budget roots directory isProcess clientProcess,
    Run (·.isQuiet) (new files (.new budget roots directory isProcess clientProcess)) s

variable {P Q : Event → Prop} {s s' t u : Gathering} {e : Event}

theorem Run.trans (h : Run P s t) (h' : Run P t u) : Run P s u := by
  induction h' with
  | refl => exact h
  | step _ he ha ih => exact ih.step he ha

theorem Run.mono (h : Run P s t) (hPQ : ∀ e, P e → Q e) : Run Q s t := by
  induction h with
  | refl => exact .refl
  | step _ he ha ih => exact ih.step (hPQ _ he) ha

theorem Run.of_follow {es : List Event} (hes : ∀ e ∈ es, P e) (h : s.follow es = some t) :
    Run P s t := by
  induction es generalizing s with
  | nil =>
    cases h
    exact .refl
  | cons e es ih =>
    obtain ⟨s₁, ha, h⟩ := Option.bind_eq_some_iff.mp h
    exact (Run.refl.step (hes e List.mem_cons_self) ha).trans
      (ih (fun e he => hes e (List.mem_cons_of_mem _ he)) h)

theorem Reachable.run (h : Reachable s) (hr : Run (·.isQuiet) s t) : Reachable t := by
  obtain ⟨files, budget, roots, directory, isProcess, clientProcess, h⟩ := h
  exact ⟨files, budget, roots, directory, isProcess, clientProcess, h.trans hr⟩

end Gathering

/-! ## Events -/

namespace Gathering

variable {s s' : Gathering} {e : Event} {n : Nat} {g : Guest} {r : Round}

/-- What an event can do. -/
inductive Happens (s : Gathering) : Event → Gathering → Prop where
  | arrives {i : Nat} {path languageId : String} {limit : Nat} {x : Instance}
      (hx : s.depot.pool.instance? i = some x) :
      Happens s (.arrive i path languageId limit)
        { s with guests := s.guests ++ [⟨.busy (.opening ⟨i, path, languageId, limit, none⟩), []⟩] }
  | goes {n : Nat} {g : Guest} {r r' : Round} {q : Pool} {notes : List Note}
      (hg : s.guests[n]? = some g) (hs : g.state = .busy r)
      (hr : r.Goes s.files s.depot.now s.depot.pool q (.running r') notes) :
      Happens s (.step n) (s.setGuest n q ⟨.busy r', g.marks ++ r.marks (.running r')⟩)
  | ends {n : Nat} {g : Guest} {r : Round} {q : Pool} {o : Wait.Outcome} {notes : List Note}
      (hg : s.guests[n]? = some g) (hs : g.state = .busy r)
      (hr : r.Goes s.files s.depot.now s.depot.pool q (.ended o) notes) :
      Happens s (.step n) (s.setGuest n q ⟨.ended o, g.marks ++ r.marks (.ended o)⟩)
  | givesUp {n : Nat} {g : Guest} {r : Round} (hg : s.guests[n]? = some g)
      (hs : g.state = .busy r) :
      Happens s (.giveUp n) (s.setGuest n (r.cancel s.depot.pool)
        { g with state := leave s.depot.pool r })
  | tidies {n k : Nat} {g : Guest} (hg : s.guests[n]? = some g) (hs : g.state = .leaving k) :
      Happens s (.tidy n) (s.setGuest n (s.depot.pool.closeLeftOpen k)
        ⟨.gone, g.marks ++ (s.depot.pool.leftOpen[k]?.map fun d => Mark.closed d.1 d.2).toList⟩)
  | edits (files : FileTree) : Happens s (.edit files) { s with files := files }
  | others {e : Depot.Event} {d : Depot} (hd : s.depot.act e = some d) :
      Happens s (.other e) { s with depot := d }

theorem happens_of_step (ha : s.act (.step n) = some s') : s.Happens (.step n) s' := by
  simp only [act, Option.bind_eq_bind, Option.bind_eq_some_iff] at ha
  obtain ⟨g, hg, ha⟩ := ha
  split at ha <;> rename_i hs
  · split at ha <;> rename_i hstep <;> cases ha
    · exact .goes hg hs (goes_of_round (.of_next hstep))
    · exact .goes hg hs (goes_of_round (.of_later hstep))
    · exact .ends hg hs (goes_of_round (.of_done hstep))
  · cases ha

/-- **Events.** An event does one of the things that `Happens` lists. -/
theorem happens_of_act (ha : s.act e = some s') : s.Happens e s' := by
  cases e with
  | arrive =>
    simp only [act] at ha
    split at ha <;> rename_i hx <;> cases ha
    exact .arrives hx
  | step n => exact happens_of_step ha
  | giveUp n =>
    simp only [act, Option.bind_eq_bind, Option.bind_eq_some_iff] at ha
    obtain ⟨g, hg, ha⟩ := ha
    split at ha <;> rename_i hs <;> cases ha
    exact .givesUp hg hs
  | tidy n =>
    simp only [act, Option.bind_eq_bind, Option.bind_eq_some_iff] at ha
    obtain ⟨g, hg, ha⟩ := ha
    split at ha <;> rename_i hs <;> cases ha
    exact .tidies hg hs
  | edit files =>
    cases ha
    exact .edits files
  | other e =>
    obtain ⟨d, hd, rfl⟩ := Option.map_eq_some_iff.mp ha
    exact .others hd

/-- Guests come, and nobody is forgotten. -/
theorem length_le_of_act (ha : s.act e = some s') : s.guests.length ≤ s'.guests.length := by
  cases happens_of_act ha with
  | arrives => simp only [List.length_append, Nat.le_add_right]
  | goes | ends | givesUp | tidies => simp only [setGuest, List.length_set, Nat.le_refl]
  | edits | others => exact Nat.le_refl _

end Gathering

end DiagnosticBroker
