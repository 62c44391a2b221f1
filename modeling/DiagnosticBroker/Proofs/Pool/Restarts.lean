import DiagnosticBroker.Proofs.Pool.Attempts
import DiagnosticBroker.Proofs.Pool.Dismissal
import DiagnosticBroker.Proofs.Pool.Readiness
import DiagnosticBroker.Proofs.Pool.Undertaking
import Mathlib.Data.List.Nodup

/-!
# Work is done again

A call of work runs it again exactly if a run has failed because the backend was gone and attempts are
left. Before that, the instance of the failed run is dismissed: it is terminated and in no slot. Since
nobody comes to hold a dismissed instance, no later run is begun with it, and no other caller who looks
for an instance from then on is given it.

Results:
* `recounts_of_reachable`: what the journal of a call says.
* `ends_of_reachable`: a call can be brought to its end, whatever its runs come to.
* `restarts_of_reachable`: when work is done again, and with which instances.
-/

namespace DiagnosticBroker.Undertaking

variable {α : Type} {b : Backend} {k n : Nat} {s s' t : Undertaking α} {e : Event α}

/-! ## Journals -/

/-- A run that failed because the backend was gone. -/
structure Failure where
  index : Nat
  fault : Fault

/-- What is noted of a failed run. -/
def Failure.entries (x : Failure) : List (Entry α) := [.begun x.index, .ended x.index (.error x.fault)]

/-- The instance that a run was begun with. -/
def Entry.begun? : Entry α → Option Nat
  | .begun i => some i
  | _ => none

/-- The instances that runs were begun with, in order. -/
def begun (s : Undertaking α) : List Nat := s.journal.filterMap Entry.begun?

/-- How far a call with a number of attempts is after some runs have failed, and what is noted since
then. A call is over with the outcome of a run that is not done again, or for want of an instance. -/
inductive Stage (b : Backend) (attempts : Nat) (failed : List Failure) :
    List (Entry α) → Task (Execute Nat) (Except Fault α) → Prop where
  | retiring {n : Nat} {x : Failure} {r : Retire} (hn : n + 1 = failed.length)
      (hx : failed.getLast? = some x) :
      Stage b attempts failed [] (.running ⟨b, n, .retiring x.index r⟩)
  | pausing {n : Nat} {deadline : Time} (hn : n + 1 = failed.length) :
      Stage b attempts failed [] (.running ⟨b, n, .pausing deadline⟩)
  | ensuring {n : Nat} (hn : n = failed.length) (e : Ensure) :
      Stage b attempts failed [] (.running ⟨b, n, .ensuring e⟩)
  | running (i : Nat) :
      Stage b attempts failed [.begun i] (.running ⟨b, failed.length, .running i i⟩)
  | returned {i : Nat} {r : Except Fault α}
      (hlast : ∀ f, r = .error f → f.needsRestart = true → attempts ≤ failed.length + 1) :
      Stage b attempts failed [.begun i, .ended i r] (.ended r)
  | refused (f : Fault) : Stage b attempts failed [.refused f] (.ended (.error f))

/-- The instance of a failed run is being taken out of use. -/
def IsRetiring (s : Undertaking α) (i : Nat) : Prop :=
  ∃ b n r, s.call = .running ⟨b, n, .retiring i r⟩

/-- What the journal of a call says: some runs have failed because the backend was gone, each with
attempts left, and `rest` was noted since. No two runs were begun with the same instance, and all
instances of failed runs are dismissed, but for the one that is being taken out of use. -/
structure Recounts (b : Backend) (s : Undertaking α) (failed : List Failure) (rest : List (Entry α)) :
    Prop where
  journal : s.journal = failed.flatMap Failure.entries ++ rest
  stage : Stage b s.depot.pool.budget.startAttempts failed rest s.call
  needed : ∀ x ∈ failed, x.fault.needsRestart = true
  left : failed.length < s.depot.pool.budget.startAttempts
  apart : s.begun.Nodup
  dismissed : ∀ x ∈ failed, s.depot.Dismissed x.index ∨ s.IsRetiring x.index

theorem filterMap_entries (failed : List Failure) :
    (failed.flatMap Failure.entries).filterMap (Entry.begun? (α := α)) = failed.map (·.index) := by
  induction failed with
  | nil => rfl
  | cons x failed ih =>
    rw [List.flatMap_cons, List.filterMap_append, ih]
    rfl

variable {failed : List Failure} {rest : List (Entry α)}

theorem Recounts.begun_eq (h : s.Recounts b failed rest) :
    s.begun = failed.map (·.index) ++ rest.filterMap Entry.begun? := by
  rw [begun, h.journal, List.filterMap_append, filterMap_entries]

/-- Since a run has failed, at most one was begun. -/
theorem Stage.length_begun_le {c : Task (Execute Nat) (Except Fault α)} (h : Stage b k failed rest c) :
    (rest.filterMap Entry.begun?).length ≤ 1 := by
  cases h with
  | retiring | pausing | ensuring | refused => exact Nat.zero_le 1
  | running | returned => exact Nat.le_refl 1

/-- The runs of a call are no more than its attempts. -/
theorem Recounts.length_begun_le (h : s.Recounts b failed rest) :
    s.begun.length ≤ s.depot.pool.budget.startAttempts := by
  have hleft := h.left
  have hrest := h.stage.length_begun_le
  rw [h.begun_eq, List.length_append, List.length_map]
  omega

/-! ### Stages -/

section Stages

variable {x : Execute Nat}

theorem Stage.of_ensuring {e : Ensure} (h : Stage b k failed rest (.running x))
    (hp : x.phase = .ensuring e) : rest = [] ∧ x = ⟨b, failed.length, .ensuring e⟩ := by
  cases h <;> cases hp
  subst_vars
  exact ⟨rfl, rfl⟩

theorem Stage.of_running {i r : Nat} (h : Stage b k failed rest (.running x))
    (hp : x.phase = .running i r) :
    rest = [.begun i] ∧ x = ⟨b, failed.length, .running i i⟩ := by
  cases h <;> cases hp
  exact ⟨rfl, rfl⟩

theorem Stage.of_retiring {i : Nat} {r : Retire} (h : Stage b k failed rest (.running x))
    (hp : x.phase = .retiring i r) : rest = [] ∧ ∃ n y, n + 1 = failed.length ∧
      failed.getLast? = some y ∧ i = y.index ∧ x = ⟨b, n, .retiring i r⟩ := by
  cases h <;> cases hp
  exact ⟨rfl, _, _, ‹_›, ‹_›, rfl, rfl⟩

theorem Stage.of_pausing {deadline : Time} (h : Stage b k failed rest (.running x))
    (hp : x.phase = .pausing deadline) :
    rest = [] ∧ ∃ n, n + 1 = failed.length ∧ x = ⟨b, n, .pausing deadline⟩ := by
  cases h <;> cases hp
  exact ⟨rfl, _, ‹_›, rfl⟩

end Stages

/-! ## What a step keeps -/

/-- What the call itself has in hand: the instance that it is about to be given is none that a run was
begun with, and the one that it takes out of use is on its way to be dismissed. -/
structure Minds (s : Undertaking α) : Prop where
  fresh : ∀ {x e i}, s.call = .running x → x.phase = .ensuring e →
    e.taken? s.depot.pool = some i → i ∉ s.begun
  retires : ∀ {x i r}, s.call = .running x → x.phase = .retiring i r → s.depot.Retires i r

/-- While no instance is being taken out of use, those of all failed runs are dismissed. -/
theorem Recounts.dismissed_of (h : s.Recounts b failed rest) (hs : ∀ i, ¬ s.IsRetiring i) :
    ∀ x ∈ failed, s.depot.Dismissed x.index :=
  fun x hx => (h.dismissed x hx).resolve_right (hs x.index)

theorem not_isRetiring {x : Execute Nat} (hx : s.call = .running x)
    (hp : ∀ i r, x.phase ≠ .retiring i r) (i : Nat) : ¬ s.IsRetiring i := by
  rintro ⟨b, n, r, hcall⟩
  rw [hx] at hcall
  cases hcall
  exact hp i r rfl

/-- What is in a slot was not given to any run, if the instances of all failed runs are dismissed. -/
theorem Recounts.not_mem_begun {d : Depot} {c : Command} {i : Nat} (h : s.Recounts b failed [])
    (hd : ∀ x ∈ failed, d.Dismissed x.index) (hi : d.pool.Holds c i) : i ∉ s.begun := by
  rw [h.begun_eq, List.filterMap_nil, List.append_nil]
  intro hmem
  obtain ⟨x, hx, rfl⟩ := List.mem_map.mp hmem
  exact (hd x hx).holds _ hi

/-- What others do leaves what the journal says as it is. -/
theorem Recounts.others {e : Depot.Event} {d : Depot} (h : s.Recounts b failed rest)
    (hs : s.Standing b) (hd : s.depot.Happens e d) :
    Recounts b { s with depot := d } failed rest := by
  have hbudget := (Depot.grows_of_happens hd).budget
  refine ⟨h.journal, ?_, h.needed, ?_, h.apart, fun x hx => ?_⟩
  · have hstage := h.stage
    rwa [← hbudget] at hstage
  · have hleft := h.left
    rwa [← hbudget] at hleft
  · exact (h.dismissed x hx).imp_left fun hx => Depot.dismissed_of_happens hs.orderly hs.made hx hd

theorem Minds.others {e : Depot.Event} {d : Depot} (hm : s.Minds) (h : s.Recounts b failed rest)
    (hs : s.Standing b) (hd : s.depot.Happens e d) : Minds { s with depot := d } where
  retires hx hp := (hm.retires hx hp).happens hs.orderly hs.made hd
  fresh {x e i} hx hp hi := by
    have hstage := h.stage
    rw [hx] at hstage
    obtain ⟨rfl, rfl⟩ := hstage.of_ensuring hp
    obtain ⟨-, -, hsound⟩ := hs.sound hx
    -- The instance is in a slot now, or was on its way to the call before.
    rcases Ensure.taken_of_settles hsound (Depot.settles_of_happens hd) hi with hi | hholds
    · exact hm.fresh hx hp hi
    · refine h.not_mem_begun (fun y hy => ?_) hholds
      have hdismissed := h.dismissed_of (not_isRetiring hx (by simp)) y hy
      exact Depot.dismissed_of_happens hs.orderly hs.made hdismissed hd

section Steps

variable {w : Surroundings} {x : Execute Nat} {q : Pool} {c : Task (Execute Nat) (Except Fault α)}
  {outcome : Except Fault α} {entries : List (Entry α)}

/-- A step that takes no instance out of use, and after which no run has failed. -/
theorem Recounts.idles (h : s.Recounts b failed rest) (hstirs : Pool.Stirs w s.depot.pool q)
    (hx : s.call = .running x) (hp : ∀ i r, x.phase ≠ .retiring i r)
    (hstage : Stage b q.budget.startAttempts failed (rest ++ entries) c)
    (hapart : (s.begun ++ entries.filterMap Entry.begun?).Nodup) :
    Recounts b ⟨{ s.depot with pool := q }, c, s.journal ++ entries⟩ failed (rest ++ entries) := by
  refine ⟨?_, hstage, h.needed, ?_, ?_, fun y hy => .inl ?_⟩
  · rw [h.journal, List.append_assoc]
  · have hleft := h.left
    rwa [← hstirs.grows.budget] at hleft
  · rwa [begun, List.filterMap_append]
  · exact (h.dismissed_of (not_isRetiring hx hp) y hy).stirs hstirs

/-- A run has failed, and its instance is about to be taken out of use. -/
theorem Recounts.breaks {i : Nat} {f : Fault} (h : s.Recounts b failed [.begun i])
    (hx : s.call = .running ⟨b, failed.length, .running i i⟩) (hf : f.needsRestart = true)
    (hlt : failed.length + 1 < s.depot.pool.budget.startAttempts) :
    Recounts b ⟨s.depot, .running ⟨b, failed.length, .retiring i .remove⟩,
      s.journal ++ [.ended i (.error f)]⟩ (failed ++ [⟨i, f⟩]) [] := by
  have hlength : (failed ++ [(⟨i, f⟩ : Failure)]).length = failed.length + 1 := by simp
  refine ⟨?_, ?_, fun y hy => ?_, hlength ▸ hlt, ?_, fun y hy => ?_⟩
  · rw [h.journal, List.flatMap_append]
    simp [Failure.entries]
  · exact .retiring hlength.symm List.getLast?_concat
  · rcases List.mem_append.mp hy with hy | hy
    · exact h.needed y hy
    · rw [List.mem_singleton.mp hy]
      exact hf
  · have hapart := h.apart
    rwa [begun, List.filterMap_append, List.filterMap_cons_none rfl, List.filterMap_nil,
      List.append_nil]
  · rcases List.mem_append.mp hy with hy | hy
    · exact .inl (h.dismissed_of (not_isRetiring hx (by simp)) y hy)
    · rw [List.mem_singleton.mp hy]
      exact .inr ⟨_, _, _, rfl⟩

/-- A step of taking the instance of a failed run out of use. -/
theorem Recounts.retiring {i : Nat} {r : Retire} (h : s.Recounts b failed [])
    (hstirs : Pool.Stirs w s.depot.pool q) (hx : s.call = .running ⟨b, n, .retiring i r⟩)
    (hstage : Stage b q.budget.startAttempts failed [] c)
    (hi : Depot.Dismissed { s.depot with pool := q } i ∨ ∃ b n r, c = .running ⟨b, n, .retiring i r⟩) :
    Recounts b ⟨{ s.depot with pool := q }, c, s.journal ++ []⟩ failed [] := by
  have hleft := h.left
  rw [← hstirs.grows.budget] at hleft
  rw [List.append_nil]
  refine ⟨h.journal, hstage, h.needed, hleft, h.apart, fun y hy => ?_⟩
  rcases h.dismissed y hy with hy | ⟨_, _, _, hcall⟩
  · exact .inl (hy.stirs hstirs)
  · rw [hx] at hcall
    cases hcall
    exact hi

/-- **Journals.** What the journal says after a step of the call. -/
theorem Recounts.steps (h : s.Recounts b failed rest) (hs : s.Standing b) (hm : s.Minds)
    (hx : s.call = .running x) (ht : x.Takes w s.depot.pool outcome q c entries) :
    ∃ failed rest,
      Recounts b ⟨{ s.depot with pool := q }, c, s.journal ++ entries⟩ failed rest := by
  have hstirs := stirs_of_takes ht
  have hstage := h.stage
  rw [hx] at hstage
  have hapart : (s.begun ++ ([] : List (Entry α)).filterMap Entry.begun?).Nodup := by
    rw [List.filterMap_nil, List.append_nil]
    exact h.apart
  cases ht with
  | ensures hp he =>
    obtain ⟨rfl, rfl⟩ := hstage.of_ensuring hp
    exact ⟨_, _, h.idles hstirs hx (by simp) (.ensuring rfl _) hapart⟩
  | @begins q e i hp he =>
    obtain ⟨rfl, rfl⟩ := hstage.of_ensuring hp
    have hfresh : i ∉ s.begun := hm.fresh hx hp (he.taken_of_ended rfl)
    refine ⟨_, _, h.idles hstirs hx (by simp) (.running i) ?_⟩
    exact List.nodup_append.mpr ⟨h.apart, List.nodup_singleton i, by
      rintro k hk m hm' rfl
      rw [List.mem_singleton.mp hm'] at hk
      exact hfresh hk⟩
  | refused hp he =>
    obtain ⟨rfl, rfl⟩ := hstage.of_ensuring hp
    exact ⟨_, _, h.idles hstirs hx (by simp) (.refused _) hapart⟩
  | returns hp hlast =>
    obtain ⟨rfl, rfl⟩ := hstage.of_running hp
    cases hp
    exact ⟨_, _, h.idles hstirs hx (by simp) (.returned hlast) hapart⟩
  | breaks hp ho hf hlt =>
    obtain ⟨rfl, rfl⟩ := hstage.of_running hp
    cases hp
    exact ⟨_, _, h.breaks hx hf hlt⟩
  | @retires q i r r' hp hr =>
    obtain ⟨rfl, n, y, hn, hy, rfl, rfl⟩ := hstage.of_retiring hp
    exact ⟨_, _, h.retiring hstirs hx (.retiring hn hy) (.inr ⟨_, _, _, rfl⟩)⟩
  | @retired q i r hp hr =>
    obtain ⟨rfl, n, y, hn, hy, rfl, rfl⟩ := hstage.of_retiring hp
    have hdismissed := ((hm.retires hx hp).goes hs.orderly.marked hs.made (hs.sound hx).2 hr).2 rfl
    exact ⟨_, _, h.retiring hstirs hx (.pausing hn) (.inl hdismissed)⟩
  | restarts hp hd =>
    obtain ⟨rfl, n, hn, rfl⟩ := hstage.of_pausing hp
    exact ⟨_, _, h.idles hstirs hx (by simp) (.ensuring hn _) hapart⟩

theorem Minds.steps (hm : s.Minds) (h : s.Recounts b failed rest) (hs : s.Standing b)
    (hx : s.call = .running x) (ht : x.Takes w s.depot.pool outcome q c entries) :
    Minds ⟨{ s.depot with pool := q }, c, s.journal ++ entries⟩ where
  retires {x' i r} hx' hp' := by
    cases hx'
    cases ht with
    | ensures | begins | retired | restarts => cases hp'
    | breaks =>
      cases hp'
      trivial
    | retires hp hr =>
      cases hp'
      obtain ⟨rfl, hsound⟩ := hs.sound hx
      rw [Execute.Sound, hp] at hsound
      exact ((hm.retires hx hp).goes hs.orderly.marked hs.made hsound hr).1 _ rfl
  fresh {x' e i} hx' hp' hi := by
    cases hx'
    have hstirs := stirs_of_takes ht
    cases ht with
    | begins | breaks | retires | retired => cases hp'
    | restarts =>
      cases hp'
      cases hi
    | @ensures _ d d' hp he =>
      cases hp'
      have hstage := h.stage
      rw [hx] at hstage
      obtain ⟨rfl, rfl⟩ := hstage.of_ensuring hp
      have hbegun : begun ⟨s.depot, s.call, s.journal ++ []⟩ = s.begun := by
        rw [List.append_nil]
      change i ∉ begun ⟨s.depot, s.call, s.journal ++ []⟩
      rw [hbegun]
      rcases he.taken hi with hi | hholds
      · exact hm.fresh hx hp hi
      · refine h.not_mem_begun (d := { s.depot with pool := q }) (fun y hy => ?_) hholds
        exact (h.dismissed_of (not_isRetiring hx (by simp)) y hy).stirs hstirs

end Steps

/-- **Journals.** The journal of a call says which runs have failed and what was noted since, in every
run. -/
theorem recounts_of_reachable (h : Reachable b s) :
    s.Minds ∧ ∃ failed rest, s.Recounts b failed rest := by
  refine Reachable.induct (I := fun s => s.Minds ∧ ∃ failed rest, s.Recounts b failed rest)
    (fun d hd => ⟨⟨?_, ?_⟩, [], [], ?_⟩) (fun s e t hr ⟨hm, failed, rest, ih⟩ ha => ?_) h
  · intro x e i hx hp hi
    cases hx
    cases hp
    cases hi
  · intro x i r hx hp
    cases hx
    cases hp
  · exact ⟨rfl, .ensuring rfl _, nofun, StartJob.one_le_startAttempts _, List.nodup_nil, nofun⟩
  · have hs := standing_of_reachable hr
    cases happens_of_act ha with
    | steps hx ht => exact ⟨hm.steps ih hs hx ht, ih.steps hs hm hx ht⟩
    | others hd => exact ⟨hm.others ih hs hd, failed, rest, ih.others hs hd⟩

/-! ## What a run keeps -/

variable {P : Undertaking α → Event α → Prop} {i : Nat}

theorem budget_of_run (h : Run P s t) : t.depot.pool.budget = s.depot.pool.budget := by
  induction h with
  | refl => rfl
  | step _ _ ha ih => exact (grows_of_happens (happens_of_act ha)).budget.trans ih

theorem prefix_of_run (h : Run P s t) : s.journal <+: t.journal := by
  induction h with
  | refl => exact List.prefix_rfl
  | step _ _ ha ih =>
    cases happens_of_act ha with
    | steps hx ht => exact ih.trans (List.prefix_append ..)
    | others hd => exact ih

/-- What is dismissed stays dismissed, and no visitor comes to hold it. -/
theorem dismissed_of_run (hr : Reachable b s) (hi : s.depot.Dismissed i) (h : Run P s t) :
    t.depot.Dismissed i ∧ ∀ n, s.depot.taken? n ≠ some i → t.depot.taken? n ≠ some i := by
  induction h with
  | refl => exact ⟨hi, fun _ hn => hn⟩
  | step h _ ha ih =>
    obtain ⟨hdismissed, huntaken⟩ := ih
    have hs := standing_of_reachable (hr.run h)
    cases happens_of_act ha with
    | steps hx ht =>
      have hstirs := stirs_of_takes ht
      exact ⟨hdismissed.stirs hstirs, fun n hn =>
        hdismissed.toAbsent.untaken hstirs hs.orderly (huntaken n hn)⟩
    | others hd =>
      have hafter := Depot.dismissed_of_happens hs.orderly hs.made hdismissed hd
      exact ⟨hafter, fun n hn =>
        Depot.untaken_of_happens hs.orderly hd hafter.toAbsent (huntaken n hn)⟩

/-! ## Calls come to an end -/

/-- What comes without any other caller, if each run of the work comes to the outcome that is foreseen
for it, the first one being that with number zero. -/
def Unaided (outcomes : Nat → Except Fault α) (s : Undertaking α) : Event α → Prop
  | .step _ outcome => ∀ x, s.call = .running x → outcome = outcomes x.restarts
  | .other e => ∃ j, Depot.Unaided j s.depot e

section Progress

variable (outcomes : Nat → Except Fault α) {x : Execute Nat}

/-- One step of a call whose runs come to what is foreseen. -/
def stepOf (outcomes : Nat → Except Fault α) (w : Surroundings) (p : Pool) (x : Execute Nat) :
    Step Pool (Execute Nat) (Except Fault α) :=
  x.step (Work.ending (outcomes x.restarts)) w p

theorem act_of_becomes {exited : Nat → Bool} {outcome : Except Fault α} {q : Pool}
    {c : Task (Execute Nat) (Except Fault α)} (hx : s.call = .running x)
    (hc : (x.step (Work.ending outcome) (s.depot.surroundings exited) s.depot.pool).Becomes q c) :
    s.act (.step exited outcome) = some ⟨{ s.depot with pool := q }, c,
      s.journal ++ s.call.entries outcome c⟩ := by
  simp only [act, stepCall]
  rw [hx, Task.advance_of_becomes hc]
  rfl

theorem run_of_depot {j : Nat} {d : Depot} (h : Depot.Run (Depot.Unaided j) s.depot d) :
    Run (Unaided outcomes) s { s with depot := d } := by
  induction h with
  | refl => exact .refl
  | step _ he ha ih => exact ih.step (e := .other _) ⟨j, he⟩ (by simp only [act, ha]; rfl)

/-- What a call can come to alone, comes without any other caller. -/
theorem run_of_alone {d : Depot} {c : Task (Execute Nat) (Except Fault α)}
    (hx : s.call = .running x) (h : Depot.Alone (stepOf outcomes) s.depot x d c) :
    ∃ journal, Run (Unaided outcomes) s ⟨d, c, journal⟩ := by
  induction h with
  | refl =>
    refine ⟨s.journal, ?_⟩
    rw [← hx]
    exact .refl
  | waits _ hd ih =>
    obtain ⟨journal, hrun⟩ := ih
    exact ⟨journal, hrun.trans (run_of_depot outcomes hd)⟩
  | steps _ hs ih =>
    obtain ⟨journal, hrun⟩ := ih
    refine ⟨_, hrun.step (e := .step _ _) (fun x hx => ?_) (act_of_becomes rfl hs)⟩
    cases hx
    rfl

/-- What follows when a call has been given an instance, or none: its work, or its end. -/
def granted (b : Backend) (n : Nat) (q : Pool) :
    Except Fault Nat → Step Pool (Execute Nat) (Except Fault α)
  | .ok i => .next q ⟨b, n, .running i i⟩
  | .error f => .done q (.error f)

/-- A call that wants an instance is given one, or is over. -/
theorem leads_ensuring {e : Ensure} (hr : Reachable b s)
    (hx : s.call = .running ⟨b, n, .ensuring e⟩) :
    ∃ t, Run (Unaided outcomes) s t ∧ ((∃ r, t.call = .ended r) ∨
      ∃ i, t.call = .running ⟨b, n, .running i i⟩) := by
  have hs := standing_of_reachable hr
  obtain ⟨d, r, hd⟩ := Depot.Seeks.serves ⟨hs.orderly, hs.made, (hs.sound hx).2.2⟩
  have hstep : ∀ w p (e : Ensure), stepOf outcomes w p ⟨b, n, .ensuring e⟩ =
      (e.step w p).within (fun e => ⟨b, n, .ensuring e⟩) (granted b n) := fun w p e => rfl
  obtain ⟨w, p, hnext⟩ := hd.within_ended hstep
  cases r with
  | ok i =>
    obtain ⟨journal, hrun⟩ := run_of_alone outcomes hx (hnext _ _ (.next _ _))
    exact ⟨_, hrun, .inr ⟨i, rfl⟩⟩
  | error f =>
    obtain ⟨journal, hrun⟩ := run_of_alone outcomes hx (hnext _ _ (.done _ _))
    exact ⟨_, hrun, .inl ⟨_, rfl⟩⟩

/-- A run that is under way comes to its outcome, and the call is over unless the instance is taken out
of use. -/
theorem leads_running {i r : Nat}
    (hx : s.call = .running ⟨b, n, .running i r⟩) :
    ∃ t, Run (Unaided outcomes) s t ∧ ((∃ r, t.call = .ended r) ∨
      n + 1 < s.depot.pool.budget.startAttempts ∧ t.call = .running ⟨b, n, .retiring i .remove⟩) := by
  have hfree : (stepOf outcomes (s.depot.surroundings fun _ => false) s.depot.pool
      ⟨b, n, .running i r⟩).isBlocked = false := by
    simp only [stepOf, Execute.step, Work.ending, Step.within]
    cases outcomes n with
    | ok a => rfl
    | error f =>
      simp only [Execute.ran]
      split_ifs <;> rfl
  obtain ⟨q, c, hc⟩ := Step.becomes_of_free hfree
  obtain ⟨journal, hrun⟩ := run_of_alone outcomes hx (Depot.Alone.refl.steps hc)
  refine ⟨_, hrun, ?_⟩
  have htakes := takes_of_execute hc
  generalize Execute.entries _ _ c = entries at htakes
  generalize outcomes _ = o at htakes
  cases htakes with
  | returns => exact .inl ⟨_, rfl⟩
  | breaks hp ho hf hlt =>
    cases hp
    exact .inr ⟨hlt, rfl⟩
  | ensures hp | begins hp | refused hp | retires hp | retired hp | restarts hp => cases hp

theorem leads_pausing {deadline : Time} (hx : s.call = .running ⟨b, n, .pausing deadline⟩) :
    ∃ t, Run (Unaided outcomes) s t ∧
      t.call = .running ⟨b, n + 1, .ensuring { backend := b }⟩ := by
  have hlater : Depot.Alone (stepOf outcomes) s.depot ⟨b, n, .pausing deadline⟩
      { s.depot with now := s.depot.now + deadline } (.running ⟨b, n, .pausing deadline⟩) :=
    Depot.Alone.refl.waits (Depot.run_elapse (j := 0) s.depot deadline)
  have hstep : stepOf outcomes (Depot.surroundings { s.depot with now := s.depot.now + deadline }
      fun _ => false) s.depot.pool ⟨b, n, .pausing deadline⟩ =
      .next s.depot.pool ⟨b, n + 1, .ensuring { backend := b }⟩ := by
    have hle : deadline ≤ s.depot.now + deadline := Nat.le_add_left ..
    simp only [stepOf, Execute.step, Depot.surroundings]
    exact if_pos hle
  obtain ⟨journal, hrun⟩ := run_of_alone outcomes hx (hlater.steps (.of_next hstep))
  exact ⟨_, hrun, rfl⟩

/-- After the instance of a failed run was taken out of use, and after a pause, the call wants another
one. -/
theorem leads_retiring {r : Retire} (hr : Reachable b s)
    (hx : s.call = .running ⟨b, n, .retiring i r⟩) :
    ∃ t, Run (Unaided outcomes) s t ∧
      t.call = .running ⟨b, n + 1, .ensuring { backend := b }⟩ := by
  have hs := standing_of_reachable hr
  obtain ⟨d, hd, -⟩ := Depot.retire_ends hs.orderly hs.made (hs.sound hx).2 r
  have hstep : ∀ w p (r : Retire), stepOf outcomes w p ⟨b, n, .retiring i r⟩ =
      (r.step w p b.command i).within (fun r => ⟨b, n, .retiring i r⟩) fun q () =>
        .next q ⟨b, n, .pausing (deadlineAfter w.now q.budget.restartBackoff)⟩ :=
    fun w p r => rfl
  obtain ⟨w, p, hnext⟩ := hd.within_ended hstep
  obtain ⟨journal, hrun⟩ := run_of_alone outcomes hx (hnext _ _ (.next _ _))
  obtain ⟨t, ht, hcall⟩ := leads_pausing outcomes (s := ⟨d, _, journal⟩) rfl
  exact ⟨t, hrun.trans ht, hcall⟩

/-- There are only so many runs as there are attempts. -/
theorem over_of_ensuring {e : Ensure} (hr : Reachable b s)
    (hx : s.call = .running ⟨b, n, .ensuring e⟩) :
    ∃ t, Run (Unaided outcomes) s t ∧ ∃ r, t.call = .ended r := by
  induction hm : s.depot.pool.budget.startAttempts - n using Nat.strongRecOn generalizing s n e with
  | ind m ih =>
    obtain ⟨t, ht, hserved⟩ := leads_ensuring outcomes hr hx
    rcases hserved with hover | ⟨i, hrunning⟩
    · exact ⟨t, ht, hover⟩
    obtain ⟨u, hu, hran⟩ := leads_running outcomes hrunning
    have hsu := ht.trans hu
    rcases hran with hover | ⟨hlt, hretiring⟩
    · exact ⟨u, hsu, hover⟩
    obtain ⟨v, hv, hensuring⟩ := leads_retiring outcomes (hr.run hsu) hretiring
    have hsv := hsu.trans hv
    have hless : v.depot.pool.budget.startAttempts - (n + 1) < m := by
      rw [budget_of_run ht] at hlt
      rw [budget_of_run hsv]
      omega
    obtain ⟨t', ht', hover⟩ := ih _ hless (hr.run hsv) hensuring rfl
    exact ⟨t', hsv.trans ht', hover⟩

/-- **Ends.** A call can be brought to its end by what comes without any other caller, whatever its
runs come to. -/
theorem ends_of_reachable (hr : Reachable b s) (outcomes : Nat → Except Fault α) :
    ∃ t, Run (Unaided outcomes) s t ∧ ∃ r, t.call = .ended r := by
  have hs := standing_of_reachable hr
  cases hx : s.call with
  | ended r => exact ⟨s, .refl, r, hx⟩
  | abandoned => exact absurd hx hs.kept
  | running x =>
    obtain ⟨b', n, phase⟩ := x
    obtain rfl : b' = b := (hs.sound hx).1
    have hensuring : ∀ {t n e}, Run (Unaided outcomes) s t →
        t.call = .running ⟨b', n, .ensuring e⟩ →
        ∃ t, Run (Unaided outcomes) s t ∧ ∃ r, t.call = .ended r := by
      intro t n e ht hx
      obtain ⟨u, hu, hover⟩ := over_of_ensuring outcomes (hr.run ht) hx
      exact ⟨u, ht.trans hu, hover⟩
    cases phase with
    | ensuring e => exact hensuring .refl hx
    | pausing deadline =>
      obtain ⟨t, ht, hcall⟩ := leads_pausing outcomes hx
      exact hensuring ht hcall
    | retiring i r =>
      obtain ⟨t, ht, hcall⟩ := leads_retiring outcomes hr hx
      exact hensuring ht hcall
    | running i r =>
      obtain ⟨t, ht, hran⟩ := leads_running outcomes hx
      rcases hran with hover | ⟨-, hretiring⟩
      · exact ⟨t, ht, hover⟩
      · obtain ⟨u, hu, hcall⟩ := leads_retiring outcomes (hr.run ht) hretiring
        exact hensuring (ht.trans hu) hcall

end Progress

/-! ## When work is done again -/

/-- **Restarts.** Work is begun at most as often as there are attempts. The journal of a call consists of
the runs that have failed because the backend was gone while attempts were left, and of what came after
them: a run that is under way or was the last one, whose outcome the call has, or the refusal that the
call has. Unless an instance is just being taken out of use, those of all failed runs are dismissed, and
no two runs were begun with the same one. What is dismissed stays so, and no caller who does not have it
is ever given it. A call can always be brought to its end, whatever its runs come to. -/
theorem restarts_of_reachable (h : Reachable b s) :
    (∃ failed rest, s.Recounts b failed rest ∧
      ((∀ i, ¬ s.IsRetiring i) → ∀ x ∈ failed, s.depot.Dismissed x.index)) ∧
    s.begun.length ≤ s.depot.pool.budget.startAttempts ∧ s.begun.Nodup ∧
    (∀ t, Run (fun _ _ => True) s t → s.journal <+: t.journal ∧ ∀ i, s.depot.Dismissed i →
      t.depot.Dismissed i ∧ ∀ n, s.depot.taken? n ≠ some i → t.depot.taken? n ≠ some i) ∧
    ∀ outcomes, ∃ t, Run (Unaided outcomes) s t ∧ ∃ r, t.call = .ended r := by
  obtain ⟨-, failed, rest, hrecounts⟩ := recounts_of_reachable h
  refine ⟨⟨failed, rest, hrecounts, hrecounts.dismissed_of⟩, hrecounts.length_begun_le,
    hrecounts.apart, fun t ht => ⟨prefix_of_run ht, fun i hi => dismissed_of_run h hi ht⟩,
    ends_of_reachable h⟩

/-- The call whose first run finds the backend gone, up to where that run has failed. -/
def broken : Undertaking Unit :=
  ((new Depot.python Depot.sample).follow ([.step (fun _ => false) (.ok ()),
    .step (fun _ => false) (.ok ())] ++ (Depot.bringing 0).map .other ++
    [.step (fun _ => false) (.ok ()), .step (fun _ => false) (.error .notConnected)])).getD
    (new Depot.python Depot.sample)

/-- The instance is taken out of use, and after a pause a second one is brought, with which the work is
done. -/
def mending : List (Event Unit) :=
  let go : Event Unit := .step (fun _ => false) (.ok ())
  [go, go, go, .other (.beside 0 (.receive Depot.farewell)), .other (.beside 0 .read), go,
    .other (.elapse 10000 0), go, go, .other (.elapse 10000 0), go, go, .other (.elapse 10000 0), go,
    go, go] ++ (Depot.bringing 1).map .other ++ [go, go]

/-- The call after the work was done with the second instance. -/
def mended : Undertaking Unit := (broken.follow mending).getD broken

theorem reachable_mended : Reachable Depot.python mended := by
  have hbroken : (new Depot.python Depot.sample).follow ([.step (fun _ => false) (.ok ()),
      .step (fun _ => false) (.ok ())] ++ (Depot.bringing 0).map .other ++
      [.step (fun _ => false) (.ok ()), .step (fun _ => false) (.error .notConnected)]) =
      some broken := by rfl
  have hmended : broken.follow mending = some mended := by
    have hsome : (broken.follow mending).isSome = true := by decide +kernel
    obtain ⟨t, ht⟩ := Option.isSome_iff_exists.mp hsome
    rw [mended, ht, Option.getD_some]
  exact ⟨Depot.sample, ⟨_, _, _, _, _, .refl⟩, (Run.of_follow hbroken).trans (Run.of_follow hmended)⟩

/-- Work that was begun with one instance and then with another: the first one is dismissed for good,
and nobody is ever given it. -/
theorem restarts_of_reachable_mended :
    mended.begun = [0, 1] ∧ mended.depot.Dismissed 0 ∧
    ∀ t, Run (fun _ _ => True) mended t → ∀ n, t.depot.taken? n ≠ some 0 := by
  have hbegun : mended.begun = [0, 1] := by decide +kernel
  have hover : mended.call.result?.isSome = true := by decide +kernel
  have hvisitors : mended.depot.visitors.length = 0 := by decide +kernel
  obtain ⟨⟨failed, rest, hrecounts, hdismissed⟩, -, -, hruns, -⟩ :=
    restarts_of_reachable reachable_mended
  have hfirst : ∃ x ∈ failed, x.index = 0 := by
    have heq := hrecounts.begun_eq
    have hrest := hrecounts.stage.length_begun_le
    rw [hbegun] at heq
    cases failed with
    | nil =>
      rw [List.map_nil, List.nil_append] at heq
      rw [← heq] at hrest
      exact absurd hrest (by decide)
    | cons x failed =>
      rw [List.map_cons, List.cons_append] at heq
      exact ⟨x, List.mem_cons_self, (List.cons.inj heq).1.symm⟩
  obtain ⟨x, hx, hindex⟩ := hfirst
  have hzero : mended.depot.Dismissed 0 := by
    rw [← hindex]
    refine hdismissed (fun i hretiring => ?_) x hx
    obtain ⟨_, _, _, hcall⟩ := hretiring
    rw [hcall] at hover
    cases hover
  refine ⟨hbegun, hzero, fun t ht n => ((hruns t ht).2 0 hzero).2 n ?_⟩
  have hnone : mended.depot.visitors = [] := List.eq_nil_of_length_eq_zero hvisitors
  rw [Depot.taken?, hnone]
  intro htaken
  cases htaken

end DiagnosticBroker.Undertaking
