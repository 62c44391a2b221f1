import DiagnosticBroker.Proofs.Pool.Growth

/-!
# Slots and starts

A slot that is held for a start says so with the index of the start, its marker. What slots and
starts say of each other is kept by every step of a start and of a visitor: a marker is that of a
start under way, an instance in a slot was brought by a start, and those who wait for a start were
woken if and only if it is over.

That a start under way still has its marker is kept, too, as long as nobody takes a slot away from a
start.

Results:
* `Marked.start`, `Owned.start`: the steps of starts keep this.
* `Marked.turn`, `Owned.turn`: the steps of visitors keep it.
-/

namespace DiagnosticBroker

namespace Pool

variable {p q : Pool} {c d : Command} {i j n : Nat}

/-- A start of a command is under way. -/
def IsStarting (p : Pool) (c : Command) (j : Nat) : Prop :=
  ∃ a, p.start? j = some a ∧ a.isUnderWay = true ∧ a.backend.command = c

/-- What slots and starts say of each other. -/
structure Marked (p : Pool) : Prop where
  keyed : p.Keyed
  marks : ∀ {c j}, p.Marks c j → p.IsStarting c j
  holds : ∀ {c i}, p.Holds c i → p.Brings c i
  notices : ∀ {j a}, p.start? j = some a → a.notices = if a.isUnderWay then 0 else 1

/-- Every start under way has the slot of its command. -/
def Owned (p : Pool) : Prop := ∀ c j, p.IsStarting c j → p.Marks c j

/-! ## Steps that fill no slot -/

/-- What was in a slot of `p` is still there in `q`, or the slot is empty. -/
structure Thins (p q : Pool) : Prop where
  starts : q.starts = p.starts
  keyed : p.Keyed → q.Keyed
  marks : ∀ {c j}, q.Marks c j → p.Marks c j
  holds : ∀ {c i}, q.Holds c i → p.Holds c i

/-- While somebody holds on to the slots, nobody else changes them. -/
def Guards (p q : Pool) : Prop :=
  p.held = true → ∀ c i, p.Holds c i → q.Holds c i

/-- No slot is taken away from a start, and none from an instance if somebody holds on to them. -/
structure Spares (p q : Pool) : Prop extends Thins p q where
  held : q.held = p.held
  spares : ∀ {c j}, p.Marks c j → q.Marks c j
  guards : Guards p q

theorem Spares.of_eq (hs : q.starts = p.starts) (ht : q.slots = p.slots) (hh : q.held = p.held) :
    Spares p q := by
  have hslot : ∀ c, q.slot? c = p.slot? c := fun c => by rw [slot?, slot?, ht]
  refine ⟨⟨hs, fun hk => ?_, fun hm => ?_, fun hm => ?_⟩, hh, fun hm => ?_, fun _ _ _ hm => ?_⟩
  · rwa [Keyed, ht]
  · rwa [Marks, ← hslot]
  · rwa [Holds, ← hslot]
  · rwa [Marks, hslot]
  · rwa [Holds, hslot]

theorem spares_touchSlot (p : Pool) (c : Command) : Spares p (p.touchSlot c) :=
  ⟨⟨rfl, fun h => h.touchSlot c, marks_touchSlot.mp, holds_touchSlot.mp⟩, rfl, marks_touchSlot.mpr,
    fun _ _ _ => holds_touchSlot.mpr⟩

theorem marks_clearSlot : (p.clearSlot c).Marks d j ↔ d ≠ c ∧ p.Marks d j := by
  rw [Marks, slot?_clearSlot]
  by_cases hd : d = c <;> simp [hd, Marks]

theorem holds_clearSlot : (p.clearSlot c).Holds d i ↔ d ≠ c ∧ p.Holds d i := by
  rw [Holds, slot?_clearSlot]
  by_cases hd : d = c <;> simp [hd, Holds]

theorem thins_clearSlot (p : Pool) (c : Command) : Thins p (p.clearSlot c) :=
  ⟨rfl, fun h => h.clearSlot c, fun h => (marks_clearSlot.mp h).2, fun h => (holds_clearSlot.mp h).2⟩

theorem spares_clearInstance (hh : p.held = false) (c : Command) (i : Nat) :
    Spares p (p.clearInstance c i) := by
  rcases clearInstance_cases p c i with ⟨hi, h⟩ | ⟨-, h⟩ <;> rw [h]
  · refine ⟨thins_clearSlot p c, rfl, fun {d j} hm => ?_, fun ht => by rw [hh] at ht; cases ht⟩
    refine marks_clearSlot.mpr ⟨?_, hm⟩
    rintro rfl
    exact hm.not_holds hi
  · exact .of_eq rfl rfl rfl

theorem marks_clearAll {found : List (Command × Nat)} :
    (p.clearAll found).Marks d j ↔ d ∉ found.map (·.1) ∧ p.Marks d j := by
  rw [Marks, slot?_clearAll]
  split_ifs with hd
  · exact ⟨fun h => (by cases h), fun h => absurd hd h.1⟩
  · exact ⟨fun h => ⟨hd, h⟩, fun h => h.2⟩

theorem holds_clearAll {found : List (Command × Nat)} :
    (p.clearAll found).Holds d i ↔ d ∉ found.map (·.1) ∧ p.Holds d i := by
  rw [Holds, slot?_clearAll]
  split_ifs with hd
  · refine ⟨?_, fun h => absurd hd h.1⟩
    rintro ⟨used, h⟩
    cases h
  · exact ⟨fun h => ⟨hd, h⟩, fun h => h.2⟩

theorem starts_clearAll (found : List (Command × Nat)) (p : Pool) :
    (p.clearAll found).starts = p.starts := by
  obtain ⟨slots, h⟩ := clearAll_eq found p
  rw [h]

theorem held_clearAll (found : List (Command × Nat)) (p : Pool) :
    (p.clearAll found).held = p.held := by
  obtain ⟨slots, h⟩ := clearAll_eq found p
  rw [h]

theorem thins_clearAll (found : List (Command × Nat)) (p : Pool) : Thins p (p.clearAll found) :=
  ⟨starts_clearAll found p, fun h => h.clearAll found, fun h => (marks_clearAll.mp h).2,
    fun h => (holds_clearAll.mp h).2⟩

theorem start?_congr (hs : q.starts = p.starts) (j : Nat) : q.start? j = p.start? j := by
  rw [start?, start?, hs]

theorem isStarting_congr (hs : q.starts = p.starts) : q.IsStarting c j ↔ p.IsStarting c j := by
  rw [IsStarting, IsStarting, start?_congr hs]

theorem Marked.thins (h : p.Marked) (ht : Thins p q) : q.Marked where
  keyed := ht.keyed h.keyed
  marks hm := (isStarting_congr ht.starts).mpr (h.marks (ht.marks hm))
  holds hm := by
    obtain ⟨j, a, ha, hp, hc⟩ := h.holds (ht.holds hm)
    exact ⟨j, a, by rwa [start?, ht.starts], hp, hc⟩
  notices {j a} ha := h.notices (by rwa [start?, ht.starts] at ha)

theorem Owned.congr (h : p.Owned) (hs : q.starts = p.starts)
    (hm : ∀ {c j}, p.Marks c j → q.Marks c j) : q.Owned :=
  fun c j hj => hm (h c j ((isStarting_congr hs).mp hj))

/-! ## New starts -/

theorem slot?_claim (p : Pool) (b : Backend) (d : Command) :
    (p.claim b).slot? d =
      if d = b.command then some (.initializing p.starts.length) else p.slot? d :=
  slot?_setSlot { p with starts := p.starts ++ [{ backend := b }] } b.command _ d

theorem marks_claim {b : Backend} : (p.claim b).Marks d j ↔
    if d = b.command then j = p.starts.length else p.Marks d j := by
  rw [Marks, slot?_claim]
  split_ifs
  · simp [eq_comm]
  · rfl

theorem holds_claim {b : Backend} : (p.claim b).Holds d i ↔ d ≠ b.command ∧ p.Holds d i := by
  rw [Holds, slot?_claim]
  by_cases hd : d = b.command <;> simp [hd, Holds]

theorem Holds.claim {b : Backend} (h : p.Holds c i) (hb : p.slot? b.command = none) :
    (p.claim b).Holds c i := by
  refine holds_claim.mpr ⟨?_, h⟩
  rintro rfl
  obtain ⟨used, h⟩ := h
  rw [hb] at h
  cases h

/-- A new start is about to begin, and the others are as they were. -/
theorem start?_claim (p : Pool) (b : Backend) {a : StartJob} :
    (p.claim b).start? j = some a ↔
      p.start? j = some a ∨ j = p.starts.length ∧ a = { backend := b } := by
  have hstart : (p.claim b).start? j = (p.starts ++ [{ backend := b }])[j]? := rfl
  rw [hstart, List.getElem?_append]
  split_ifs with hj
  · exact ⟨.inl, fun h => h.resolve_right fun h => by omega⟩
  · have hnone : p.start? j = none := List.getElem?_eq_none (by omega)
    rw [hnone, List.getElem?_singleton]
    by_cases he : j = p.starts.length
    · simp [he, eq_comm]
    · have : j - p.starts.length ≠ 0 := by omega
      simp [this, he]

theorem isStarting_claim {b : Backend} : (p.claim b).IsStarting c j ↔
    p.IsStarting c j ∨ j = p.starts.length ∧ b.command = c := by
  constructor
  · rintro ⟨a, ha, hw, hc⟩
    rcases (start?_claim p b).mp ha with ha | ⟨hj, rfl⟩
    · exact .inl ⟨a, ha, hw, hc⟩
    · exact .inr ⟨hj, hc⟩
  · rintro (⟨a, ha, hw, hc⟩ | ⟨hj, hc⟩)
    · exact ⟨a, (start?_claim p b).mpr (.inl ha), hw, hc⟩
    · exact ⟨_, (start?_claim p b).mpr (.inr ⟨hj, rfl⟩), rfl, hc⟩

theorem Marked.claim (h : p.Marked) (b : Backend) : (p.claim b).Marked where
  keyed := Keyed.setSlot (p := { p with starts := p.starts ++ [{ backend := b }] }) h.keyed _ _
  marks {c j} hm := by
    rw [marks_claim] at hm
    split_ifs at hm with hc
    · exact isStarting_claim.mpr (.inr ⟨hm, hc.symm⟩)
    · exact isStarting_claim.mpr (.inl (h.marks hm))
  holds hm := (h.holds (holds_claim.mp hm).2).grows (grows_claim p b)
  notices {j a} ha := by
    rcases (start?_claim p b).mp ha with ha | ⟨-, rfl⟩
    · exact h.notices ha
    · rfl

theorem Owned.claim (h : p.Owned) {b : Backend} (hs : p.slot? b.command = none) :
    (p.claim b).Owned := by
  intro c j hj
  rw [marks_claim]
  rcases isStarting_claim.mp hj with hj | ⟨hj, hc⟩
  · have hm := h c j hj
    have hc : c ≠ b.command := by
      rintro rfl
      rw [Marks, hs] at hm
      cases hm
    rwa [if_neg hc]
  · rwa [if_pos hc.symm]

end Pool

open Pool (Thins Guards Spares Marked Owned)

variable {w : Surroundings} {p q : Pool} {n : Nat} {j j' : StartJob}

/-! ## Steps of starts -/

/-- The last step of a start. -/
structure StartJob.Ends (p : Pool) (n : Nat) (j : StartJob) (q : Pool) (j' : StartJob) : Prop where
  unheld : p.held = false
  held : q.held = false
  isUnderWay : j'.isUnderWay = false
  notices : j'.notices = j.notices + 1
  keyed : p.Keyed → q.Keyed
  slot? : ∀ {d}, d ≠ j.backend.command → q.slot? d = p.slot? d
  marks : ∀ {k}, q.Marks j.backend.command k → p.Marks j.backend.command k ∧ k ≠ n
  holds : ∀ {i}, q.Holds j.backend.command i →
    p.Holds j.backend.command i ∨ j'.phase = .over (.ok i)
  brings : ∀ {i}, j'.phase = .over (.ok i) → q.Holds j.backend.command i

theorem StartJob.ends_settle {r : StartResult} (hh : p.held = false) :
    j.Ends p n (settle p j r).1 (settle p j r).2 := by
  cases r with
  | ok i =>
    refine ⟨hh, hh, rfl, rfl, fun hk => hk.setSlot _ _, fun hd => ?_, fun hm => ?_, fun hm => ?_,
      fun hp => ?_⟩
    · exact (Pool.slot?_setSlot ..).trans (if_neg hd)
    · rw [Pool.Marks, settle, Pool.slot?_setSlot, if_pos rfl] at hm
      cases hm
    · obtain ⟨used, hm⟩ := hm
      rw [settle, Pool.slot?_setSlot, if_pos rfl] at hm
      cases hm
      exact .inr rfl
    · cases hp
      exact ⟨p.uptime, (Pool.slot?_setSlot ..).trans (if_pos rfl)⟩
  | error f =>
    refine ⟨hh, hh, rfl, rfl, fun hk => hk.clearSlot _, fun hd => ?_, fun hm => ?_, fun hm => ?_,
      fun hp => by cases hp⟩
    · exact (Pool.slot?_clearSlot ..).trans (if_neg hd)
    · exact absurd rfl (Pool.marks_clearSlot.mp hm).1
    · exact absurd rfl (Pool.holds_clearSlot.mp hm).1

theorem StartJob.ends_clear {cause : String} (hh : p.held = false) :
    j.Ends p n (clear p n j cause).1 (clear p n j cause).2 := by
  unfold clear
  simp only
  split_ifs with hs
  · refine ⟨hh, hh, rfl, rfl, fun hk => hk.clearSlot _, fun hd => ?_, fun hm => ?_, fun hm => ?_,
      fun hp => by cases hp⟩
    · exact (Pool.slot?_clearSlot ..).trans (if_neg hd)
    · exact absurd rfl (Pool.marks_clearSlot.mp hm).1
    · exact absurd rfl (Pool.holds_clearSlot.mp hm).1
  · refine ⟨hh, hh, rfl, rfl, id, fun _ => rfl, fun hm => ⟨hm, ?_⟩, .inl, fun hp => by cases hp⟩
    rintro rfl
    exact hs hm

/-- A start goes on and leaves the slots as they are, or ends. -/
theorem StartJob.Goes.cases (h : j.Goes w p n q j') :
    q.slots = p.slots ∧ q.held = p.held ∧ j'.isUnderWay = true ∧ j'.notices = j.notices ∨
      j.Ends p n q j' := by
  have hfail : ∀ k f, (afterFailure w.now j k f).isUnderWay = true ∧
      (afterFailure w.now j k f).notices = j.notices := by
    intro k f
    unfold afterFailure
    cases j.policy.next k f with
    | again pause k => exact ⟨rfl, rfl⟩
    | giveUp => cases hr : f.isRecoverable <;> exact ⟨rfl, rfl⟩
  cases h with
  | refused hp f => exact .inl ⟨rfl, rfl, hfail _ _⟩
  | stopped hp hx hs => exact .inl ⟨rfl, rfl, hfail _ _⟩
  | settles hp hh => exact .inr (ends_settle hh)
  | clears hp hh => exact .inr (ends_clear hh)
  | _ => exact .inl ⟨rfl, rfl, rfl, rfl⟩

/-- The starts after a step of one of them. -/
theorem StartJob.Goes.start?_setStart (h : j.Goes w p n q j') (hj : p.start? n = some j) (k : Nat) :
    (q.setStart n j').start? k = if k = n then some j' else p.start? k := by
  have hs := h.grows.2
  have hj' : q.start? n = some j := by rwa [Pool.start?, hs]
  rw [Pool.start?_setStart hj', Pool.start?, Pool.start?, hs]

theorem Pool.Marked.start (hm : p.Marked) (hj : p.start? n = some j) (h : j.Goes w p n q j') :
    (q.setStart n j').Marked := by
  have hgrows := grows_start hj h
  have hstart := h.start?_setStart hj
  have hback := h.backend
  -- Another start is as it was, and so is a marker that it has.
  have hother : ∀ {c k}, p.IsStarting c k → k ≠ n → (q.setStart n j').IsStarting c k := by
    rintro c k ⟨a, ha, hw, hc⟩ hk
    exact ⟨a, by rw [hstart, if_neg hk, ha], hw, hc⟩
  rcases h.cases with ⟨hslots, -, hway, hnote⟩ | he
  · have hslot : ∀ c, (q.setStart n j').slot? c = p.slot? c := by
      intro c
      rw [Pool.slot?, Pool.setStart, hslots]
      rfl
    refine ⟨?_, fun {c k} hk => ?_, fun {c i} hi => ?_, fun {k a} ha => ?_⟩
    · rw [Pool.Keyed, Pool.setStart, hslots]
      exact hm.keyed
    · rw [Pool.Marks, hslot] at hk
      have hold := hm.marks hk
      by_cases hkn : k = n
      · subst hkn
        obtain ⟨a, ha, -, hc⟩ := hold
        rw [hj] at ha
        cases ha
        exact ⟨j', by rw [hstart, if_pos rfl], hway, by rw [hback, hc]⟩
      · exact hother hold hkn
    · rw [Pool.Holds, hslot] at hi
      exact (hm.holds hi).grows hgrows
    · rw [hstart] at ha
      split_ifs at ha with hk
      · cases ha
        rw [hway, hnote, hm.notices hj, h.isUnderWay]
      · exact hm.notices ha
  · refine ⟨he.keyed hm.keyed, fun {c k} hk => ?_, fun {c i} hi => ?_, fun {k a} ha => ?_⟩
    · by_cases hc : c = j.backend.command
      · subst hc
        obtain ⟨hk, hkn⟩ := he.marks hk
        exact hother (hm.marks hk) hkn
      · have hold : p.Marks c k := (he.slot? hc).symm.trans hk
        obtain ⟨a, ha, hw, hca⟩ := hm.marks hold
        refine hother ⟨a, ha, hw, hca⟩ ?_
        rintro rfl
        rw [hj] at ha
        cases ha
        exact hc hca.symm
    · by_cases hc : c = j.backend.command
      · subst hc
        rcases he.holds hi with hi | hp
        · exact (hm.holds hi).grows hgrows
        · exact ⟨n, j', by rw [hstart, if_pos rfl], hp, by rw [hback]⟩
      · have hold : p.Holds c i := by
          obtain ⟨used, hi⟩ := hi
          exact ⟨used, (he.slot? hc).symm.trans hi⟩
        exact (hm.holds hold).grows hgrows
    · rw [hstart] at ha
      split_ifs at ha with hk
      · cases ha
        rw [he.isUnderWay, he.notices, hm.notices hj, h.isUnderWay]
        rfl
      · exact hm.notices ha

theorem Pool.Owned.start (ho : p.Owned) (hj : p.start? n = some j) (h : j.Goes w p n q j') :
    (q.setStart n j').Owned := by
  have hstart := h.start?_setStart hj
  rintro c k ⟨a, ha, hw, hc⟩
  rw [hstart] at ha
  rcases h.cases with ⟨hslots, -, -, -⟩ | he
  · have hslot : (q.setStart n j').slot? c = p.slot? c := by
      rw [Pool.slot?, Pool.setStart, hslots]
      rfl
    rw [Pool.Marks, hslot]
    split_ifs at ha with hk
    · subst hk
      cases ha
      exact ho _ _ ⟨j, hj, h.isUnderWay, by rw [← h.backend, hc]⟩
    · exact ho _ _ ⟨a, ha, hw, hc⟩
  · split_ifs at ha with hk
    · cases ha
      rw [he.isUnderWay] at hw
      cases hw
    · have hmark := ho c k ⟨a, ha, hw, hc⟩
      have hne : c ≠ j.backend.command := by
        rintro rfl
        exact hk (hmark.eq (ho _ _ ⟨j, hj, h.isUnderWay, rfl⟩))
      exact (he.slot? hne).trans hmark

end DiagnosticBroker
