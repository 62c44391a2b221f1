/-!
# Tables as lists of pairs

A table is a list of pairs of a key and a value, in which the first pair with a key counts. An entry
is replaced by leaving out all pairs with its key and putting the new one in front.

Results:
* `lookup_filter_of_ne`, `lookup_filter_self`: what leaving a key out does to look-ups.
* `lookup_put`: what replacing an entry does to look-ups.
* `lookup_of_mem`: what an entry says if no key stands twice.
-/

namespace DiagnosticBroker.Assoc

variable {α β : Type} [BEq α] [LawfulBEq α] {k x : α}

theorem mem_of_lookup {v : β} {rows : List (α × β)} (h : rows.lookup k = some v) :
    (k, v) ∈ rows := by
  obtain ⟨l₁, l₂, rfl, -⟩ := List.lookup_eq_some_iff.mp h
  simp

/-- Something stands at the key of an entry. -/
theorem exists_lookup_of_mem {v : β} {rows : List (α × β)} (h : (k, v) ∈ rows) :
    ∃ w, rows.lookup k = some w := by
  cases hl : rows.lookup k with
  | none => exact absurd (List.lookup_eq_none_iff.mp hl _ h) (by simp)
  | some w => exact ⟨w, rfl⟩

/-- If no key stands twice, every entry counts. -/
theorem lookup_of_mem {v : β} {rows : List (α × β)} (hkeys : (rows.map (·.1)).Nodup)
    (h : (k, v) ∈ rows) : rows.lookup k = some v := by
  induction rows with
  | nil => cases h
  | cons row rows ih =>
    obtain ⟨hnot, hnodup⟩ := List.nodup_cons.mp hkeys
    rcases List.mem_cons.mp h with rfl | h
    · exact List.lookup_cons_self
    · have hne : (k == row.1) = false := by
        rw [beq_eq_false_iff_ne]
        rintro rfl
        exact hnot (List.mem_map.mpr ⟨_, h, rfl⟩)
      rw [List.lookup_cons, hne]
      exact ih hnodup h

variable [DecidableEq α]

/-- Leaving out one key does not change what stands at another one. -/
theorem lookup_filter_of_ne (hx : x ≠ k) (rows : List (α × β)) :
    (rows.filter fun row => row.1 ≠ k).lookup x = rows.lookup x := by
  induction rows with
  | nil => rfl
  | cons row rows ih =>
    by_cases hr : row.1 = k
    · have hxr : (x == row.1) = false := by simp [hr, hx]
      rw [List.filter_cons_of_neg (by simp [hr]), ih, List.lookup_cons, hxr]
    · rw [List.filter_cons_of_pos (by simp [hr]), List.lookup_cons, List.lookup_cons, ih]

@[simp]
theorem lookup_filter_self (k : α) (rows : List (α × β)) :
    (rows.filter fun row => row.1 ≠ k).lookup k = none := by
  rw [List.lookup_eq_none_iff]
  intro row hrow
  have hne : row.1 ≠ k := by simpa using (List.mem_filter.mp hrow).2
  simpa using hne.symm

theorem lookup_put (k x : α) (v : β) (rows : List (α × β)) :
    ((k, v) :: rows.filter fun row => row.1 ≠ k).lookup x =
      if x = k then some v else rows.lookup x := by
  by_cases h : x = k
  · rw [if_pos h, h, List.lookup_cons_self]
  · have hx : (x == k) = false := by simp [h]
    rw [if_neg h, List.lookup_cons, hx]
    exact lookup_filter_of_ne h rows

end DiagnosticBroker.Assoc
