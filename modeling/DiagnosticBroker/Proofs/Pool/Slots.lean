import DiagnosticBroker.Assoc
import DiagnosticBroker.Pool.Ensure

/-!
# What stands where in a pool

What each change of a pool does to what stands in the slot of a command, to a start, and to an
instance. No command has two slots, so that an entry in the list of slots is always the one that
counts.

Results:
* `slot?_clearSlot`, `slot?_setSlot`, `slot?_touchSlot`, `slot?_clearAll`: what stands in a slot after
  a change.
* `mem_slots_iff`: an entry is the one that counts.
* `start?_setStart`, `instance?_setInstance`: what the other tables say after a change.
-/

namespace DiagnosticBroker

/-- The slot after a use, unless a start has it. -/
def Slot.renewed (uptime : Nat) : Slot → Slot
  | .initializing j => .initializing j
  | .ready i _ => .ready i uptime

namespace Pool

variable {p : Pool} {c d : Command} {i j k n : Nat}

/-- Whether the slot of a command has an instance. -/
def Holds (p : Pool) (c : Command) (i : Nat) : Prop := ∃ used, p.slot? c = some (.ready i used)

/-- Whether the slot of a command is held for a start. -/
def Marks (p : Pool) (c : Command) (j : Nat) : Prop := p.slot? c = some (.initializing j)

theorem Marks.eq (h : p.Marks c j) (h' : p.Marks c k) : j = k := by
  rw [Marks] at h h'
  rw [h] at h'
  cases h'
  rfl

theorem Marks.not_holds (h : p.Marks c j) : ¬ p.Holds c i := by
  rintro ⟨used, hu⟩
  rw [Marks, hu] at h
  cases h

theorem Holds.eq (h : p.Holds c i) (h' : p.Holds c k) : i = k := by
  obtain ⟨used, hi⟩ := h
  obtain ⟨used', hk⟩ := h'
  rw [hi] at hk
  cases hk
  rfl

/-! ## Slots after a change -/

theorem slot?_clearSlot (p : Pool) (c d : Command) :
    (p.clearSlot c).slot? d = if d = c then none else p.slot? d := by
  by_cases h : d = c
  · subst h
    rw [if_pos rfl]
    exact Assoc.lookup_filter_self d p.slots
  · rw [if_neg h]
    exact Assoc.lookup_filter_of_ne h p.slots

theorem slot?_setSlot (p : Pool) (c : Command) (s : Slot) (d : Command) :
    (p.setSlot c s).slot? d = if d = c then some s else p.slot? d := by
  have hclear := slot?_clearSlot p c d
  have happend : (p.setSlot c s).slot? d =
      ((p.clearSlot c).slot? d).or (List.lookup d [(c, s)]) := List.lookup_append
  rw [happend, hclear]
  by_cases h : d = c
  · subst h
    simp
  · have hd : (d == c) = false := by simp [h]
    simp [List.lookup_cons, hd, h]

theorem slot?_touchSlot (p : Pool) (c d : Command) :
    (p.touchSlot c).slot? d =
      (p.slot? d).map fun s => if d = c then s.renewed p.uptime else s := by
  unfold slot? touchSlot
  induction p.slots with
  | nil => rfl
  | cons e slots ih =>
    obtain ⟨b, s⟩ := e
    by_cases hb : d = b
    · subst hb
      cases s with
      | initializing j => simp [Slot.renewed]
      | ready i used => by_cases hc : d = c <;> simp [hc, Slot.renewed]
    · have hd : (d == b) = false := by simp [hb]
      cases s with
      | initializing j => simpa [List.lookup_cons, hd] using ih
      | ready i used =>
        by_cases hc : b = c
        · subst hc
          simpa [List.lookup_cons, hd] using ih
        · simpa [List.lookup_cons, hd, hc] using ih

theorem marks_touchSlot : (p.touchSlot c).Marks d j ↔ p.Marks d j := by
  rw [Marks, Marks, slot?_touchSlot]
  cases p.slot? d with
  | none => simp
  | some s => cases s <;> by_cases hd : d = c <;> simp [hd, Slot.renewed]

theorem holds_touchSlot : (p.touchSlot c).Holds d i ↔ p.Holds d i := by
  rw [Holds, Holds, slot?_touchSlot]
  cases p.slot? d with
  | none => simp
  | some s => cases s <;> by_cases hd : d = c <;> simp [hd, Slot.renewed]

/-- Taking an instance out of its slot leaves everything as it is, unless it is there. -/
theorem clearInstance_cases (p : Pool) (c : Command) (i : Nat) :
    p.Holds c i ∧ p.clearInstance c i = p.clearSlot c ∨
      ¬ p.Holds c i ∧ p.clearInstance c i = p := by
  unfold clearInstance
  cases hs : p.slot? c with
  | none => exact .inr ⟨by rintro ⟨used, hu⟩; simp [hs] at hu, rfl⟩
  | some s =>
    cases s with
    | initializing j => exact .inr ⟨by rintro ⟨used, hu⟩; simp [hs] at hu, rfl⟩
    | ready k used =>
      by_cases hk : k = i
      · exact .inl ⟨⟨used, by rw [hs, hk]⟩, by simp [hk]⟩
      · refine .inr ⟨?_, by simp [hk]⟩
        rintro ⟨used', hu⟩
        simp [hs, hk] at hu

/-- Empties the slots of some commands. -/
def clearAll (p : Pool) (found : List (Command × Nat)) : Pool :=
  found.foldl (fun p e => p.clearSlot e.1) p

/-- Emptying slots changes nothing else. -/
theorem clearAll_eq (found : List (Command × Nat)) (p : Pool) :
    ∃ slots, p.clearAll found = { p with slots := slots } := by
  induction found generalizing p with
  | nil => exact ⟨p.slots, rfl⟩
  | cons e found ih =>
    obtain ⟨slots, hslots⟩ := ih (p.clearSlot e.1)
    exact ⟨slots, hslots⟩

theorem slot?_clearAll (found : List (Command × Nat)) (p : Pool) (d : Command) :
    (p.clearAll found).slot? d = if d ∈ found.map (·.1) then none else p.slot? d := by
  induction found generalizing p with
  | nil => rfl
  | cons e found ih =>
    have hstep : p.clearAll (e :: found) = (p.clearSlot e.1).clearAll found := rfl
    rw [hstep, ih, slot?_clearSlot]
    by_cases hd : d = e.1 <;> by_cases hm : d ∈ found.map (·.1) <;> simp [hd, hm]

/-! ## The list of slots -/

/-- No command has two slots. -/
def Keyed (p : Pool) : Prop := (p.slots.map (·.1)).Nodup

theorem Keyed.clearSlot (h : p.Keyed) (c : Command) : (p.clearSlot c).Keyed :=
  h.sublist (List.filter_sublist.map _)

theorem Keyed.setSlot (h : p.Keyed) (c : Command) (s : Slot) : (p.setSlot c s).Keyed := by
  have hkeys : (p.setSlot c s).slots.map (·.1) = (p.clearSlot c).slots.map (·.1) ++ [c] := by
    simp [Pool.setSlot]
  rw [Keyed, hkeys, List.nodup_append]
  refine ⟨h.clearSlot c, by simp, ?_⟩
  intro a ha b hb
  obtain ⟨e, he, rfl⟩ := List.mem_map.mp ha
  obtain rfl := List.mem_singleton.mp hb
  simpa using (List.mem_filter.mp he).2

theorem Keyed.touchSlot (h : p.Keyed) (c : Command) : (p.touchSlot c).Keyed := by
  have hkeys : (p.touchSlot c).slots.map (·.1) = p.slots.map (·.1) := by
    rw [Pool.touchSlot, List.map_map]
    refine List.map_congr_left fun e _ => ?_
    obtain ⟨b, s⟩ := e
    cases s with
    | initializing j => rfl
    | ready i used => by_cases hb : b = c <;> simp [hb]
  rw [Keyed, hkeys]
  exact h

theorem Keyed.clearAll (h : p.Keyed) (found : List (Command × Nat)) : (p.clearAll found).Keyed := by
  induction found generalizing p with
  | nil => exact h
  | cons e found ih => exact ih (h.clearSlot e.1)

theorem mem_slots_iff (h : p.Keyed) {s : Slot} : (c, s) ∈ p.slots ↔ p.slot? c = some s :=
  ⟨Assoc.lookup_of_mem h, Assoc.mem_of_lookup⟩

/-! ## Other tables -/

theorem start?_setStart {a b : StartJob} (h : p.start? n = some a) (k : Nat) :
    (p.setStart n b).start? k = if k = n then some b else p.start? k := by
  have hlt : n < p.starts.length := (List.getElem?_eq_some_iff.mp h).1
  by_cases hk : k = n
  · subst hk
    simp [start?, setStart, hlt]
  · simp [start?, setStart, hk, List.getElem?_set_ne (Ne.symm hk)]

theorem instance?_setInstance {x y : Instance} (h : p.instance? n = some x) (k : Nat) :
    (p.setInstance n y).instance? k = if k = n then some y else p.instance? k := by
  have hlt : n < p.instances.length := (List.getElem?_eq_some_iff.mp h).1
  by_cases hk : k = n
  · subst hk
    simp [instance?, setInstance, hlt]
  · simp [instance?, setInstance, hk, List.getElem?_set_ne (Ne.symm hk)]

end Pool

end DiagnosticBroker
