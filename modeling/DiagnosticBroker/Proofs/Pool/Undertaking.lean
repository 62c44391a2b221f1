import DiagnosticBroker.Proofs.Pool.Callers

/-!
# Everything that happens while work is done

An `Undertaking` is one call of work with a backend together with everything that happens meanwhile:
whatever other callers, starts and backends do at the same pool. One event is a step of the call or
something else that happens to the depot. A run of the work ends, at any time, with any outcome; what
it does to its instance before that is left to those who are beside the instance.

With which instance each run was begun and what came of it, is written down in a journal, so that what
is proved can speak of the past.

Results:
* `takes_of_execute`: what a step of the call can do.
* `happens_of_act`: what an event can do.
* `standing_of_reachable`: the depot is orderly, and what the call knows of its instance is true.
-/

namespace DiagnosticBroker

open Pool (Grows)

variable {α : Type} {w : Surroundings} {p q : Pool}

/-! ## The call -/

/-- Work whose run comes to an outcome. -/
def Work.ending (outcome : Except Fault α) : Work Nat α where
  begin _ i := i
  step _ p _ := .done p outcome

/-- What is noted of a call. -/
inductive Undertaking.Entry (α : Type) where
  /-- A run was begun with an instance. -/
  | begun (index : Nat)
  /-- The run with an instance came to an outcome. -/
  | ended (index : Nat) (outcome : Except Fault α)
  /-- There was no instance to be had. -/
  | refused (fault : Fault)

/-- What is noted of a step of a call; `outcome` is that of the run that is under way. -/
def Execute.entries (outcome : Except Fault α) (x : Execute Nat)
    (t : Task (Execute Nat) (Except Fault α)) : List (Undertaking.Entry α) :=
  match x.phase, t with
  | .ensuring _, .running ⟨_, _, .running i _⟩ => [.begun i]
  | .ensuring _, .ended (.error f) => [.refused f]
  | .running i _, _ => [.ended i outcome]
  | _, _ => []

/-- What is noted of a step that leads from one call to another. -/
def Task.entries (outcome : Except Fault α) (t t' : Task (Execute Nat) (Except Fault α)) :
    List (Undertaking.Entry α) :=
  match t with
  | .running x => x.entries outcome t'
  | _ => []

/-- A call of work, and all that happens meanwhile. -/
structure Undertaking (α : Type) where
  depot : Depot
  call : Task (Execute Nat) (Except Fault α)
  journal : List (Undertaking.Entry α) := []

/-- One thing that can happen. -/
inductive Undertaking.Event (α : Type) where
  /-- A step of the call; `outcome` is that of the run that is under way. -/
  | step (exited : Nat → Bool) (outcome : Except Fault α)
  /-- Something else happens to the pool. -/
  | other (event : Depot.Event)

namespace Undertaking

/-- Work with a backend that is about to be done. -/
def new (b : Backend) (depot : Depot) : Undertaking α where
  depot := depot
  call := .running (.start b)

/-- A step of the call; `none` if there is nothing to do. -/
def stepCall (s : Undertaking α) (exited : Nat → Bool) (outcome : Except Fault α) :
    Option (Undertaking α) :=
  (s.call.advance fun x =>
    x.step (Work.ending outcome) (s.depot.surroundings exited) s.depot.pool).map fun (p, t) =>
      { depot := { s.depot with pool := p }
        call := t
        journal := s.journal ++ s.call.entries outcome t }

/-- What an event does; `none` if it cannot happen now. -/
def act (s : Undertaking α) : Event α → Option (Undertaking α)
  | .step exited outcome => s.stepCall exited outcome
  | .other e => (s.depot.act e).map fun d => { s with depot := d }

/-- One event after the other. -/
def follow (s : Undertaking α) : List (Event α) → Option (Undertaking α)
  | [] => some s
  | e :: es => (s.act e).bind fun s => s.follow es

/-- What can come of an undertaking by events that have a property where they happen. -/
inductive Run (P : Undertaking α → Event α → Prop) (s : Undertaking α) : Undertaking α → Prop where
  | refl : Run P s s
  | step {t u : Undertaking α} {e : Event α} (h : Run P s t) (he : P t e) (ha : t.act e = some u) :
      Run P s u

/-- What can come of work with a backend that is begun at any time, whatever else happens. -/
def Reachable (b : Backend) (s : Undertaking α) : Prop :=
  ∃ d, Depot.Reachable (fun _ _ => True) d ∧ Run (fun _ _ => True) (new b d) s

variable {P Q : Undertaking α → Event α → Prop} {b : Backend} {s t u : Undertaking α}

theorem Run.trans (h : Run P s t) (h' : Run P t u) : Run P s u := by
  induction h' with
  | refl => exact h
  | step _ he ha ih => exact ih.step he ha

theorem Run.mono (h : Run P s t) (hPQ : ∀ s e, P s e → Q s e) : Run Q s t := by
  induction h with
  | refl => exact .refl
  | step _ he ha ih => exact ih.step (hPQ _ _ he) ha

theorem Run.of_follow {es : List (Event α)} (h : s.follow es = some t) :
    Run (fun _ _ => True) s t := by
  induction es generalizing s with
  | nil =>
    cases h
    exact .refl
  | cons e es ih =>
    obtain ⟨s₁, ha, h⟩ := Option.bind_eq_some_iff.mp h
    exact (Run.refl.step trivial ha).trans (ih h)

theorem Reachable.run (h : Reachable b s) (hr : Run P s t) : Reachable b t := by
  obtain ⟨d, hd, h⟩ := h
  exact ⟨d, hd, h.trans (hr.mono fun _ _ _ => trivial)⟩

/-- What holds at the beginning and is kept by every event, holds all the time. -/
theorem Reachable.induct {I : Undertaking α → Prop}
    (hnew : ∀ d, Depot.Reachable (fun _ _ => True) d → I (new b d))
    (hact : ∀ s e t, Reachable b s → I s → s.act e = some t → I t) (h : Reachable b s) : I s := by
  obtain ⟨d, hd, h⟩ := h
  induction h with
  | refl => exact hnew d hd
  | step h _ ha ih => exact hact _ _ _ ⟨d, hd, h⟩ ih ha

end Undertaking

/-! ## What a step of the call can do -/

/-- What a step of a call can do, and what is noted of it. -/
inductive Execute.Takes (w : Surroundings) (p : Pool) (outcome : Except Fault α) (x : Execute Nat) :
    Pool → Task (Execute Nat) (Except Fault α) → List (Undertaking.Entry α) → Prop where
  | ensures {q : Pool} {e e' : Ensure} (hp : x.phase = .ensuring e)
      (he : e.Goes w p q (.running e')) :
      Takes w p outcome x q (.running (x.enter (.ensuring e'))) []
  | begins {q : Pool} {e : Ensure} {i : Nat} (hp : x.phase = .ensuring e)
      (he : e.Goes w p q (.ended (.ok i))) :
      Takes w p outcome x q (.running (x.enter (.running i i))) [.begun i]
  | refused {q : Pool} {e : Ensure} {f : Fault} (hp : x.phase = .ensuring e)
      (he : e.Goes w p q (.ended (.error f))) :
      Takes w p outcome x q (.ended (.error f)) [.refused f]
  | returns {i r : Nat} (hp : x.phase = .running i r)
      (hlast : ∀ f, outcome = .error f → f.needsRestart = true →
        p.budget.startAttempts ≤ x.restarts + 1) :
      Takes w p outcome x p (.ended outcome) [.ended i outcome]
  | breaks {i r : Nat} {f : Fault} (hp : x.phase = .running i r) (ho : outcome = .error f)
      (hf : f.needsRestart = true) (hlt : x.restarts + 1 < p.budget.startAttempts) :
      Takes w p outcome x p (.running (x.enter (.retiring i .remove))) [.ended i (.error f)]
  | retires {q : Pool} {i : Nat} {r r' : Retire} (hp : x.phase = .retiring i r)
      (hr : r.Goes w p x.backend.command i q (.running r')) :
      Takes w p outcome x q (.running (x.enter (.retiring i r'))) []
  | retired {q : Pool} {i : Nat} {r : Retire} (hp : x.phase = .retiring i r)
      (hr : r.Goes w p x.backend.command i q (.ended ())) :
      Takes w p outcome x q
        (.running (x.enter (.pausing (deadlineAfter w.now q.budget.restartBackoff)))) []
  | restarts {deadline : Time} (hp : x.phase = .pausing deadline) (hd : deadline ≤ w.now) :
      Takes w p outcome x p (.running
        { x with restarts := x.restarts + 1, phase := .ensuring { backend := x.backend } }) []

/-- What the call does when a run has ended. -/
theorem takes_of_ran {outcome : Except Fault α} {x : Execute Nat} {i r : Nat}
    {t : Task (Execute Nat) (Except Fault α)} (hp : x.phase = .running i r)
    (h : (Execute.ran p x i outcome).Becomes q t) :
    x.Takes w p outcome q t [.ended i outcome] := by
  cases outcome with
  | ok a =>
    cases h
    exact .returns hp fun f hf => by cases hf
  | error f =>
    simp only [Execute.ran] at h
    split_ifs at h with hf
    · obtain ⟨hneeds, hlt⟩ := Bool.and_eq_true_iff.mp hf
      cases h
      exact .breaks hp rfl hneeds (of_decide_eq_true hlt)
    · cases h
      refine .returns hp fun g hg hneeds => Nat.le_of_not_lt fun hlt => hf ?_
      cases hg
      exact Bool.and_eq_true_iff.mpr ⟨hneeds, decide_eq_true hlt⟩

/-- **Calls.** A step of a call does one of the things that `Execute.Takes` lists. -/
theorem takes_of_execute {outcome : Except Fault α} {x : Execute Nat}
    {t : Task (Execute Nat) (Except Fault α)} (h : (x.step (Work.ending outcome) w p).Becomes q t) :
    x.Takes w p outcome q t (x.entries outcome t) := by
  unfold Execute.entries
  unfold Execute.step at h
  cases hp : x.phase <;> simp only [hp] at h ⊢
  case ensuring e =>
    rcases h.of_within with ⟨e', he, rfl⟩ | ⟨st, r, he, h⟩
    · exact .ensures hp (goes_of_ensure he)
    · cases r with
      | ok i => cases h; exact .begins hp (goes_of_ensure he)
      | error f => cases h; exact .refused hp (goes_of_ensure he)
  case running i r => exact takes_of_ran hp h
  case retiring i r =>
    rcases h.of_within with ⟨r', hr, rfl⟩ | ⟨st, a, hr, h⟩
    · exact .retires hp (goes_of_retire hr)
    · cases h
      exact .retired hp (goes_of_retire hr)
  case pausing deadline =>
    split_ifs at h with hd
    · cases h
      exact .restarts hp hd
    · cases h

/-- To a pool, a call is one more caller. -/
theorem stirs_of_takes {outcome : Except Fault α} {x : Execute Nat}
    {t : Task (Execute Nat) (Except Fault α)} {entries : List (Undertaking.Entry α)}
    (h : x.Takes w p outcome q t entries) : Pool.Stirs w p q := by
  cases h with
  | ensures hp he | begins hp he | refused hp he => exact .seeks he
  | returns | breaks | restarts => exact .rests rfl
  | @retires q i r r' hp hr =>
    exact .seeks (Ensure.Goes.retires (e := ⟨x.backend, .retire i r⟩) rfl hr)
  | @retired q i r hp hr =>
    exact .seeks (Ensure.Goes.retired (e := ⟨x.backend, .retire i r⟩) rfl hr)

/-- A step of a call leaves it with something true. -/
theorem Execute.Takes.sound {outcome : Except Fault α} {x x' : Execute Nat}
    {entries : List (Undertaking.Entry α)} (h : x.Takes w p outcome q (.running x') entries)
    (hm : p.Marked) (hx : x.Sound p) : x'.Sound q ∧ x'.backend = x.backend := by
  unfold Execute.Sound at hx
  cases h with
  | ensures hp he =>
    simp only [hp] at hx
    obtain ⟨hs, hb⟩ := he.sound hm hx.2
    exact ⟨⟨hb.trans hx.1, hs⟩, rfl⟩
  | begins hp he =>
    simp only [hp] at hx
    have hbrings := he.brings hx.2
    rw [hx.1] at hbrings
    exact ⟨⟨rfl, hbrings⟩, rfl⟩
  | breaks hp =>
    simp only [hp] at hx
    exact ⟨hx.2, rfl⟩
  | retires hp hr =>
    simp only [hp] at hx
    exact ⟨hx.grows hr.grows, rfl⟩
  | retired => exact ⟨trivial, rfl⟩
  | restarts => exact ⟨⟨rfl, trivial⟩, rfl⟩

/-! ## Events -/

namespace Undertaking

variable {b : Backend} {s s' : Undertaking α} {e : Event α}

/-- What an event can do. -/
inductive Happens (s : Undertaking α) : Event α → Undertaking α → Prop where
  | steps {exited : Nat → Bool} {outcome : Except Fault α} {x : Execute Nat} {q : Pool}
      {t : Task (Execute Nat) (Except Fault α)} {entries : List (Entry α)}
      (hx : s.call = .running x)
      (ht : x.Takes (s.depot.surroundings exited) s.depot.pool outcome q t entries) :
      Happens s (.step exited outcome)
        { depot := { s.depot with pool := q }, call := t, journal := s.journal ++ entries }
  | others {e : Depot.Event} {d : Depot} (hd : s.depot.Happens e d) :
      Happens s (.other e) { s with depot := d }

/-- **Events.** An event does one of the things that `Happens` lists. -/
theorem happens_of_act (h : s.act e = some s') : s.Happens e s' := by
  cases e with
  | step exited outcome =>
    obtain ⟨⟨q, t⟩, ha, rfl⟩ := Option.map_eq_some_iff.mp h
    obtain ⟨x, hx, hs⟩ := Task.becomes_of_advance ha
    rw [hx]
    exact .steps hx (takes_of_execute hs)
  | other e =>
    obtain ⟨d, hd, rfl⟩ := Option.map_eq_some_iff.mp h
    exact .others (Depot.happens_of_act hd)

/-- The depot of an undertaking is orderly, and what its call knows is true. -/
structure Standing (b : Backend) (s : Undertaking α) : Prop where
  orderly : s.depot.Orderly
  made : s.depot.pool.Made
  kept : s.call ≠ .abandoned
  sound : ∀ {x}, s.call = .running x → x.backend = b ∧ x.Sound s.depot.pool

theorem Standing.happens (hs : s.Standing b) (h : s.Happens e s') : s'.Standing b := by
  cases h with
  | others hd =>
    refine ⟨hs.orderly.happens hd, Depot.made_of_happens hs.made hd, hs.kept, fun hx => ?_⟩
    obtain ⟨hback, hsound⟩ := hs.sound hx
    exact ⟨hback, Errand.Sound.grows (e := .work _) hsound (Depot.grows_of_happens hd)⟩
  | steps hx ht =>
    have hstirs := stirs_of_takes ht
    refine ⟨hstirs.orderly hs.orderly, hstirs.made hs.made, by cases ht <;> exact nofun,
      fun hx' => ?_⟩
    cases hx'
    obtain ⟨hback, hsound⟩ := hs.sound hx
    obtain ⟨hsound', hback'⟩ := ht.sound hs.orderly.marked hsound
    exact ⟨hback'.trans hback, hsound'⟩

/-- **Standing.** The depot of an undertaking is orderly, and what its call knows is true. -/
theorem standing_of_reachable (h : Reachable b s) : s.Standing b := by
  refine h.induct (fun d hd => ?_) fun s e t _ ih ha => ih.happens (happens_of_act ha)
  refine ⟨Depot.orderly_of_reachable hd, Depot.made_of_reachable hd, nofun, fun hx => ?_⟩
  cases hx
  exact ⟨rfl, rfl, trivial⟩

theorem grows_of_happens (h : s.Happens e s') : Grows s.depot.pool s'.depot.pool := by
  cases h with
  | steps hx ht => exact (stirs_of_takes ht).grows
  | others hd => exact Depot.grows_of_happens hd

end Undertaking

end DiagnosticBroker
