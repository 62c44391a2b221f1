import DiagnosticBroker.Proofs.Pool.Callers
import DiagnosticBroker.Proofs.Pool.Hands
import DiagnosticBroker.Proofs.Pool.Progress

/-!
# What a caller can come to alone

Whatever a caller waits for comes without the help of any other caller: time passes, starts end, and
whoever holds on to the slots lets them go. `Depot.Alone` says what an operation on a pool can come to
in this way, while no other caller comes and none of those who are there has to go on. Whoever takes an
instance out of use is done with it then, and whoever wants a ready instance is given one, or is told
why there is none.

Results:
* `Retire.effort_of_goes`: every step leaves less to do.
* `Retire.alone_ends`: an instance that is taken out of use is out of use in the end.
* `Ensure.alone_ends`: whoever wants an instance is served in the end.
-/

namespace DiagnosticBroker

open Pool (Grows Thins)

/-! ## Steps that are not blocked -/

theorem Step.becomes_of_free {σ ρ α : Type} {s : Step σ ρ α} (h : s.isBlocked = false) :
    ∃ q t, s.Becomes q t := by
  cases s with
  | blocked u => cases h
  | next st r => exact ⟨st, _, .next st r⟩
  | later st r => exact ⟨st, _, .later st r⟩
  | done st a => exact ⟨st, _, .done st a⟩

theorem Step.Becomes.within {σ ρ π α β : Type} {s : Step σ ρ α} {rest : ρ → π}
    {finish : σ → α → Step σ π β} {q : σ} {r : ρ} (h : s.Becomes q (.running r)) :
    (s.within rest finish).Becomes q (.running (rest r)) := by
  cases h with
  | next => exact .next _ _
  | later => exact .later _ _

theorem Step.Becomes.within_ended {σ ρ π α β : Type} {s : Step σ ρ α} {rest : ρ → π}
    {finish : σ → α → Step σ π β} {q : σ} {a : α} (h : s.Becomes q (.ended a)) :
    s.within rest finish = finish q a := by
  cases h
  rfl

theorem Task.advance_of_becomes {σ ρ α : Type} {step : ρ → Step σ ρ α} {r : ρ} {q : σ}
    {t : Task ρ α} (h : (step r).Becomes q t) : (Task.running r).advance step = some (q, t) := by
  simp only [Task.advance]
  generalize step r = s at h ⊢
  cases h <;> rfl

/-! ## Taking an instance out of use -/

/-- How many steps may still be taken to take an instance out of use. -/
def Retire.effort : Retire → Nat
  | .remove => 10
  | .stopping s => s.effort

theorem Retire.effort_of_goes {w : Surroundings} {p q : Pool} {c : Command} {i : Nat}
    {r r' : Retire} (h : r.Goes w p c i q (.running r')) : r'.effort < r.effort := by
  cases h with
  | removes => exact Nat.lt_succ_self 9
  | stops hx hs => exact Instance.effort_shutdown hs

/-- Whoever takes an instance out of use waits for the slots, and then no longer than to a
deadline. -/
theorem Retire.free_retire {p : Pool} {c : Command} {i : Nat} {r : Retire} (isProcess : Bool)
    (clientProcess : Nat) (hh : p.held = false) (hx : ∃ x, p.instance? i = some x) :
    ∃ deadline, ∀ now, deadline ≤ now →
      (r.step ⟨now, fun _ => false, isProcess, clientProcess⟩ p c i).isBlocked = false := by
  cases r with
  | remove =>
    refine ⟨0, fun now _ => ?_⟩
    simp only [step, hh]
    rfl
  | stopping s =>
    obtain ⟨x, hx⟩ := hx
    obtain ⟨deadline, hfree⟩ := Instance.free_shutdown (fun _ => false) x s
    refine ⟨deadline, fun now hnow => Instance.isBlocked_within ?_ fun q u => rfl⟩
    exact StartJob.isBlocked_onInstance hx (hfree now hnow)

namespace Depot

/-! ## Alone -/

section Alone

variable {ρ π α β : Type} {step : Surroundings → Pool → ρ → Step Pool ρ α} {s t u : Depot} {r r' : ρ}
  {o : Task ρ α}

/-- What an operation on the pool of a depot can come to without any other caller, and in which
depot: by its own steps, while no process ends by itself, and by what a start waits for. -/
inductive Alone (step : Surroundings → Pool → ρ → Step Pool ρ α) (s : Depot) (r : ρ) :
    Depot → Task ρ α → Prop where
  | refl : Alone step s r s (.running r)
  | waits {t u : Depot} {r' : ρ} {j : Nat} (h : Alone step s r t (.running r'))
      (hu : Run (Unaided j) t u) : Alone step s r u (.running r')
  | steps {t : Depot} {r' : ρ} {q : Pool} {o : Task ρ α} (h : Alone step s r t (.running r'))
      (hs : (step (t.surroundings fun _ => false) t.pool r').Becomes q o) :
      Alone step s r { t with pool := q } o

theorem Alone.trans (h : Alone step s r t (.running r')) (h' : Alone step t r' u o) :
    Alone step s r u o := by
  induction h' with
  | refl => exact h
  | waits _ hu ih => exact ih.waits hu
  | steps _ hs ih => exact ih.steps hs

/-- What an operation can come to, can be come to by the operation that it is a part of. -/
theorem Alone.within {step' : Surroundings → Pool → π → Step Pool π β} {rest : ρ → π}
    {finish : Surroundings → Pool → Pool → α → Step Pool π β}
    (hstep : ∀ w p r, step' w p (rest r) = (step w p r).within rest (finish w p))
    (h : Alone step s r t (.running r')) : Alone step' s (rest r) t (.running (rest r')) := by
  generalize ho : Task.running r' = o at h
  induction h generalizing r' with
  | refl =>
    cases ho
    exact .refl
  | waits _ hu ih =>
    cases ho
    exact (ih rfl).waits hu
  | steps _ hs ih =>
    cases ho
    refine (ih rfl).steps ?_
    rw [hstep]
    exact hs.within

/-- What follows the end of an operation, follows in the operation that it is a part of. -/
theorem Alone.within_ended {step' : Surroundings → Pool → π → Step Pool π β} {rest : ρ → π}
    {finish : Surroundings → Pool → Pool → α → Step Pool π β}
    (hstep : ∀ w p r, step' w p (rest r) = (step w p r).within rest (finish w p)) {a : α}
    (h : Alone step s r t (.ended a)) :
    ∃ w p, ∀ q o, (finish w p t.pool a).Becomes q o →
      Alone step' s (rest r) { t with pool := q } o := by
  cases h with
  | @steps t r' q o h hs =>
    refine ⟨t.surroundings fun _ => false, t.pool, fun q o ho => (h.within hstep).steps ?_⟩
    rw [hstep, hs.within_ended]
    exact ho

/-- What is possible from some time on, is done after enough time. -/
theorem becomes_of_free (step : Surroundings → Pool → ρ → Step Pool ρ α)
    (hfree : ∃ deadline, ∀ now, deadline ≤ now →
      (step ⟨now, fun _ => false, s.isProcess, s.clientProcess⟩ s.pool r).isBlocked = false) :
    ∃ d q o, (step (Depot.surroundings { s with now := s.now + d } fun _ => false) s.pool r).Becomes
      q o := by
  obtain ⟨deadline, hfree⟩ := hfree
  obtain ⟨q, o, ho⟩ := Step.becomes_of_free (hfree _ (Nat.le_add_left deadline s.now))
  exact ⟨deadline, q, o, ho⟩

end Alone

variable {s t : Depot} {b : Backend} {i j : Nat}

/-! ## Taking an instance out of use -/

/-- An instance that is taken out of use is out of use in the end, and no slot is filled
meanwhile. -/
theorem retire_ends (ho : s.Orderly) (hm : s.pool.Made) (hi : s.pool.Brings b.command i)
    (r : Retire) :
    ∃ t, Alone (fun w p (r : Retire) => r.step w p b.command i) s r t (.ended ()) ∧ t.Orderly ∧
      t.pool.Made ∧ Thins s.pool t.pool := by
  induction he : r.effort using Nat.strongRecOn generalizing s r with
  | ind e ih =>
    obtain ⟨t, ht, hheld, hthins, -⟩ := frees_of_orderly ho 0
    have hit := hi.grows (grows_of_run ht)
    have hmt := made_of_run hm ht
    obtain ⟨d, q, o, hstep⟩ := becomes_of_free (fun w p (r : Retire) => r.step w p b.command i)
      (Retire.free_retire (c := b.command) (r := r) t.isProcess t.clientProcess hheld
        (exists_of_brings hit hmt))
    have hlater : Alone (fun w p (r : Retire) => r.step w p b.command i) s r
        { t with now := t.now + d } (.running r) := (Alone.refl.waits ht).waits (run_elapse (j := 0) t d)
    have hout := hlater.steps hstep
    have hgoes := goes_of_retire hstep
    have hthins' : Thins s.pool q := hthins.trans hgoes.spares.toThins
    have hot : Orderly { t with now := t.now + d } := (ho.run ht).run (run_elapse (j := 0) t d)
    cases o with
    | abandoned => exact nomatch hgoes
    | ended u =>
      have hensure : Ensure.Goes _ t.pool ⟨b, .retire i r⟩ q (.running ⟨b, .look⟩) :=
        .retired rfl hgoes
      exact ⟨_, hout, hot.joined (.ready hensure) rfl rfl, (Pool.Stirs.seeks hensure).made hmt,
        hthins'⟩
    | running r' =>
      have hensure : Ensure.Goes _ t.pool ⟨b, .retire i r⟩ q (.running ⟨b, .retire i r'⟩) :=
        .retires rfl hgoes
      obtain ⟨u, hu, hou, hmu, hthinsu⟩ := ih _ (he ▸ Retire.effort_of_goes hgoes)
        (s := { t with now := t.now + d, pool := q }) (hot.joined (.ready hensure) rfl rfl)
        ((Pool.Stirs.seeks hensure).made hmt) (hit.grows hgoes.grows) r' rfl
      exact ⟨u, hout.trans hu, hou, hmu, hthins'.trans hthinsu⟩

/-! ## Getting an instance -/

variable {e e' : Ensure} {q : Pool}

/-- A depot is in order, and what a caller knows who wants a ready instance is true. -/
structure Seeks (s : Depot) (e : Ensure) : Prop where
  orderly : s.Orderly
  made : s.pool.Made
  sound : e.Sound s.pool

/-- A caller is given an instance, or told why there is none. -/
def Serves (s : Depot) (e : Ensure) : Prop := ∃ t r, Alone Ensure.step s e t (.ended r)

theorem Seeks.serves_of_next (hs : s.Seeks e)
    (he : e.step (s.surroundings fun _ => false) s.pool = .next q e')
    (h : Seeks { s with pool := q } e' → Serves { s with pool := q } e') : s.Serves e := by
  have hstep := Step.Becomes.of_next he
  have hgoes := goes_of_ensure hstep
  obtain ⟨t, r, ht⟩ := h ⟨hs.orderly.joined (.ready hgoes) rfl rfl,
    (Pool.Stirs.seeks hgoes).made hs.made, (hgoes.sound hs.orderly.marked hs.sound).1⟩
  exact ⟨t, r, (Alone.refl.steps hstep).trans ht⟩

theorem serves_of_done {r : StartResult}
    (he : e.step (s.surroundings fun _ => false) s.pool = .done q r) : s.Serves e :=
  ⟨_, r, Alone.refl.steps (Step.Becomes.of_done he)⟩

theorem Seeks.serves_of_run (hs : s.Seeks e) (hr : Run (Unaided j) s t)
    (h : t.Seeks e → t.Serves e) : s.Serves e := by
  obtain ⟨u, r, hu⟩ := h ⟨hs.orderly.run hr, made_of_run hs.made hr, hs.sound.grows (grows_of_run hr)⟩
  exact ⟨u, r, (Alone.refl.waits hr).trans hu⟩

/-- Nobody holds on to the slots for ever. -/
theorem Seeks.serves_of_free (hs : s.Seeks e)
    (h : ∀ t : Depot, t.Seeks e → t.pool.held = false → Thins s.pool t.pool → t.Serves e) :
    s.Serves e := by
  obtain ⟨t, ht, hheld, hthins, -⟩ := frees_of_orderly hs.orderly 0
  exact hs.serves_of_run ht fun hseeks => h t hseeks hheld hthins

/-- A start ends, and no slot is held for a new one before that. -/
theorem Seeks.serves_of_start {a : StartJob} (hs : s.Seeks e) (ha : s.pool.start? j = some a)
    (h : ∀ (t : Depot) (b : StartJob), t.Seeks e → t.pool.start? j = some b →
      b.isUnderWay = false → (∀ c k, t.pool.Marks c k → s.pool.Marks c k) → t.Serves e) :
    s.Serves e := by
  obtain ⟨t, b, ht, hb, hover⟩ := ends_of_orderly hs.orderly hs.made ha
  exact hs.serves_of_run ht fun hseeks =>
    h t b hseeks hb hover fun c k => marks_of_unaided ht

theorem serves_joining (hs : s.Seeks ⟨b, .joining j⟩) : s.Serves ⟨b, .joining j⟩ := by
  obtain ⟨a, ha, -⟩ := hs.sound
  refine hs.serves_of_start ha fun t a' hseeks ha' hover _ => ?_
  obtain ⟨r, hresult⟩ : ∃ r, a'.result? = some r := by
    unfold StartJob.isUnderWay at hover
    unfold StartJob.result?
    cases hp : a'.phase <;> simp only [hp] at hover ⊢
    case «over» r => exact ⟨r, rfl⟩
    case cleared cause => exact ⟨_, rfl⟩
    all_goals cases hover
  refine serves_of_done (q := t.pool) (r := r) ?_
  simp only [Ensure.step, ha', Option.bind_some, hresult]

/-- Whoever takes the empty slot begins a start, which ends. -/
theorem serves_claim (hs : s.Seeks ⟨b, .claim⟩) (hh : s.pool.held = false)
    (hslot : s.pool.slot? b.command = none) : s.Serves ⟨b, .claim⟩ := by
  have he : Ensure.step (s.surroundings fun _ => false) s.pool ⟨b, .claim⟩ =
      .next (s.pool.claim b) ⟨b, .joining s.pool.starts.length⟩ := by
    simp only [Ensure.step, if_neg (Bool.eq_false_iff.mp hh), Ensure.claimed, hslot]
    rfl
  exact hs.serves_of_next he serves_joining

theorem slot?_of_thins {p q : Pool} {c : Command} (h : Thins p q) (hs : p.slot? c = none) :
    q.slot? c = none := by
  cases hq : q.slot? c with
  | none => rfl
  | some slot =>
    cases slot with
    | initializing j =>
      have hmark : p.slot? c = some (.initializing j) := h.marks hq
      rw [hs] at hmark
      cases hmark
    | ready i used =>
      obtain ⟨used', hhold⟩ := h.holds ⟨used, hq⟩
      rw [hs] at hhold
      cases hhold

theorem serves_look_empty (hs : s.Seeks ⟨b, .look⟩) (hslot : s.pool.slot? b.command = none) :
    s.Serves ⟨b, .look⟩ := by
  refine hs.serves_of_free fun t hs hh hthins => ?_
  have hslot := slot?_of_thins hthins hslot
  have he : Ensure.step (t.surroundings fun _ => false) t.pool ⟨b, .look⟩ =
      .next t.pool ⟨b, .claim⟩ := by
    simp only [Ensure.step, hh, Ensure.looked, hslot]
    rfl
  exact hs.serves_of_next he fun hs => serves_claim hs hh hslot

/-- Whoever takes an instance out of use looks at the slot afterwards. -/
theorem serves_retire {r : Retire} (hs : s.Seeks ⟨b, .retire i r⟩)
    (h : ∀ t : Depot, t.Seeks ⟨b, .look⟩ → Thins s.pool t.pool → t.Serves ⟨b, .look⟩) :
    s.Serves ⟨b, .retire i r⟩ := by
  obtain ⟨t, ht, ho, hm, hthins⟩ := retire_ends hs.orderly hs.made hs.sound r
  have hstep : ∀ w p (r : Retire), Ensure.step w p ⟨b, .retire i r⟩ =
      (r.step w p b.command i).within (fun r => ⟨b, .retire i r⟩)
        fun p () => .next p ⟨b, .look⟩ := fun w p r => rfl
  obtain ⟨-, -, hnext⟩ := ht.within_ended hstep
  obtain ⟨u, result, hu⟩ := h t ⟨ho, hm, trivial⟩ hthins
  exact ⟨u, result, (hnext _ _ (.next _ _)).trans hu⟩

theorem serves_touch (hs : s.Seeks ⟨b, .touch i⟩) : s.Serves ⟨b, .touch i⟩ := by
  refine hs.serves_of_free fun t hs hh _ => ?_
  refine serves_of_done (q := t.pool.touchSlot b.command) (r := .ok i) ?_
  simp only [Ensure.step, if_neg (Bool.eq_false_iff.mp hh)]

theorem serves_probe (hs : s.Seeks ⟨b, .probe i⟩) : s.Serves ⟨b, .probe i⟩ := by
  obtain ⟨x, hx⟩ := exists_of_brings hs.sound hs.made
  have he : Ensure.step (s.surroundings fun _ => false) s.pool ⟨b, .probe i⟩ =
      .next s.pool ⟨b, .touch i⟩ := by
    simp only [Ensure.step, surroundings, hx, Option.map_some, Option.getD_some]
    cases x.process <;> rfl
  exact hs.serves_of_next he serves_touch

/-- Where an unhealthy instance is taken out of its slot, the slot is empty. -/
theorem serves_reject (hs : s.Seeks ⟨b, .retire i .remove⟩) (hh : s.pool.held = false)
    (hi : s.pool.Holds b.command i) : s.Serves ⟨b, .retire i .remove⟩ := by
  have he : Ensure.step (s.surroundings fun _ => false) s.pool ⟨b, .retire i .remove⟩ =
      .next (s.pool.clearInstance b.command i) ⟨b, .retire i (.stopping .begin)⟩ := by
    simp only [Ensure.step, Retire.step, if_neg (Bool.eq_false_iff.mp hh)]
    rfl
  have hempty : (s.pool.clearInstance b.command i).slot? b.command = none := by
    rcases Pool.clearInstance_cases s.pool b.command i with ⟨-, heq⟩ | ⟨hnot, -⟩
    · rw [heq, Pool.slot?_clearSlot, if_pos rfl]
    · exact absurd hi hnot
  refine hs.serves_of_next he fun hs => serves_retire hs fun t hs hthins => ?_
  exact serves_look_empty hs (slot?_of_thins hthins hempty)

/-- Where no slot is held for a start, an instance is found or the slot is empty. -/
theorem serves_look_unmarked (hs : s.Seeks ⟨b, .look⟩)
    (hmarks : ∀ k, ¬ s.pool.Marks b.command k) : s.Serves ⟨b, .look⟩ := by
  refine hs.serves_of_free fun t hs hh hthins => ?_
  cases hslot : t.pool.slot? b.command with
  | none => exact serves_look_empty hs hslot
  | some slot =>
    cases slot with
    | initializing k => exact absurd (hthins.marks hslot) (hmarks k)
    | ready i used =>
      have hlook : Ensure.step (t.surroundings fun _ => false) t.pool ⟨b, .look⟩ =
          if ((t.pool.instance? i).map (·.lifecycle.isUsable)).getD false then
            .next t.pool ⟨b, .probe i⟩
          else .next t.pool ⟨b, .retire i .remove⟩ := by
        simp only [Ensure.step, if_neg (Bool.eq_false_iff.mp hh), Ensure.looked, hslot]
        rfl
      split_ifs at hlook with husable
      · exact hs.serves_of_next hlook serves_probe
      · exact hs.serves_of_next hlook fun hs => serves_reject hs hh ⟨used, hslot⟩

/-- Whoever is parked on a start looks at the slot when the start has ended. -/
theorem serves_parked {seen : Nat} (hs : s.Seeks ⟨b, .parked j seen⟩)
    (h : ∀ t : Depot, t.Seeks ⟨b, .look⟩ →
      (∀ k, t.pool.Marks b.command k → s.pool.Marks b.command k ∧ k ≠ j) → t.Serves ⟨b, .look⟩) :
    s.Serves ⟨b, .parked j seen⟩ := by
  obtain ⟨rfl, a, ha, -⟩ := hs.sound
  refine hs.serves_of_start ha fun t a' hs ha' hover hmarks => ?_
  have hmarked := hs.orderly.marked
  have hnotices : a'.notices ≠ 0 := by
    rw [hmarked.notices ha', hover]
    exact Nat.one_ne_zero
  have he : Ensure.step (t.surroundings fun _ => false) t.pool ⟨b, .parked j 0⟩ =
      .next t.pool ⟨b, .look⟩ := by
    simp only [Ensure.step, ha', if_neg hnotices]
    rfl
  refine hs.serves_of_next he fun hs => h _ hs fun k hk => ⟨hmarks _ _ hk, ?_⟩
  rintro rfl
  obtain ⟨d, hd, hway, -⟩ := hmarked.marks hk
  rw [ha'] at hd
  cases hd
  rw [hover] at hway
  cases hway

/-- Whoever wants to wait for a start waits for it, or looks at the slot again. -/
theorem serves_enlist {seen : Nat} (hs : s.Seeks ⟨b, .enlist j seen⟩)
    (h : ∀ t : Depot, t.Seeks ⟨b, .look⟩ →
      (∀ k, t.pool.Marks b.command k → s.pool.Marks b.command k ∧ k ≠ j) → t.Serves ⟨b, .look⟩) :
    s.Serves ⟨b, .enlist j seen⟩ := by
  refine hs.serves_of_free fun t hs hh hthins => ?_
  have he : Ensure.step (t.surroundings fun _ => false) t.pool ⟨b, .enlist j seen⟩ =
      if t.pool.slot? b.command = some (.initializing j) then .next t.pool ⟨b, .parked j seen⟩
      else .next t.pool ⟨b, .look⟩ := by
    simp only [Ensure.step, if_neg (Bool.eq_false_iff.mp hh)]
    rfl
  split_ifs at he with hmark
  · refine hs.serves_of_next he fun hs => serves_parked hs fun u hs hmarks => h u hs fun k hk => ?_
    exact ⟨hthins.marks (hmarks k hk).1, (hmarks k hk).2⟩
  · refine hs.serves_of_next he fun hs => h _ hs fun k hk => ⟨hthins.marks hk, ?_⟩
    rintro rfl
    exact hmark hk

theorem serves_look (hs : s.Seeks ⟨b, .look⟩) : s.Serves ⟨b, .look⟩ := by
  refine hs.serves_of_free fun t hs hh _ => ?_
  by_cases hmarks : ∃ k, t.pool.Marks b.command k
  · obtain ⟨j, hmark⟩ := hmarks
    have he : Ensure.step (t.surroundings fun _ => false) t.pool ⟨b, .look⟩ =
        .next t.pool ⟨b, .enlist j (((t.pool.start? j).map (·.notices)).getD 0)⟩ := by
      have hslot : t.pool.slot? b.command = some (.initializing j) := hmark
      simp only [Ensure.step, if_neg (Bool.eq_false_iff.mp hh), Ensure.looked, hslot]
      rfl
    refine hs.serves_of_next he fun hs => serves_enlist hs fun u hs hother => ?_
    refine serves_look_unmarked hs fun k hk => ?_
    obtain ⟨hk, hne⟩ := hother k hk
    exact hne (hk.eq hmark)
  · exact serves_look_unmarked hs fun k hk => hmarks ⟨k, hk⟩

/-- **Instances.** Whoever wants a ready instance is given one in the end, or told why there is
none. -/
theorem Seeks.serves (hs : s.Seeks e) : s.Serves e := by
  obtain ⟨b, phase⟩ := e
  cases phase with
  | look => exact serves_look hs
  | probe i => exact serves_probe hs
  | touch i => exact serves_touch hs
  | retire i r => exact serves_retire hs fun t hs _ => serves_look hs
  | enlist j seen => exact serves_enlist hs fun t hs _ => serves_look hs
  | parked j seen => exact serves_parked hs fun t hs _ => serves_look hs
  | joining j => exact serves_joining hs
  | claim =>
    refine hs.serves_of_free fun t hs hh _ => ?_
    cases hslot : t.pool.slot? b.command with
    | none => exact serves_claim hs hh hslot
    | some slot =>
      have he : Ensure.step (t.surroundings fun _ => false) t.pool ⟨b, .claim⟩ =
          .next t.pool ⟨b, .look⟩ := by
        simp only [Ensure.step, if_neg (Bool.eq_false_iff.mp hh), Ensure.claimed, hslot]
        rfl
      exact hs.serves_of_next he serves_look

end Depot

end DiagnosticBroker
