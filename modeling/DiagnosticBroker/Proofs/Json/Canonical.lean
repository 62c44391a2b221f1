import DiagnosticBroker.Proofs.Json.RoundTrip
import Mathlib.Data.String.Basic

/-!
# Canonical values

The canonical value of a document has its members sorted by name, of one name the last, at every
depth. It is canonical itself, it is nested no deeper than the document, and its numbers are numbers
of the document.

Results:
* `Json.induct`: what holds of a container if it holds of what is in it, holds of all documents.
* `canonical_canonical`: a canonical value is its own canonical value.
* `nesting_canonical_le`, `numbers_canonical_subset`: what a canonical value keeps of the document.
* `read?_write`: a canonical value that was written is read back.
-/

namespace DiagnosticBroker.Json

/-! ## Induction over documents -/

/-- What holds of a container if it holds of what is in it, holds of all documents. -/
theorem induct {P : Json → Prop} (hnull : P null) (hbool : ∀ b, P (bool b)) (hnum : ∀ n, P (num n))
    (hstr : ∀ s, P (str s)) (harr : ∀ items, (∀ j ∈ items, P j) → P (arr items))
    (hobj : ∀ ms, (∀ m ∈ ms, P m.2) → P (obj ms)) : ∀ j, P j
  | null => hnull
  | bool b => hbool b
  | num n => hnum n
  | str s => hstr s
  | arr items => harr items fun j _ => induct hnull hbool hnum hstr harr hobj j
  | obj ms => hobj ms fun m _ => induct hnull hbool hnum hstr harr hobj m.2
termination_by j => sizeOf j
decreasing_by
  · have hlt : sizeOf j < sizeOf items := List.sizeOf_lt_of_mem ‹_›
    simp only [arr.sizeOf_spec]
    omega
  · have hlt : sizeOf m < sizeOf ms := List.sizeOf_lt_of_mem ‹_›
    have hpair : sizeOf m.2 < sizeOf m := by
      cases m
      simp only [Prod.mk.sizeOf_spec]
      omega
    simp only [obj.sizeOf_spec]
    omega

/-! ## What is in a container -/

theorem canonicalItems_eq_map (items : List Json) : canonicalItems items = items.map canonical := by
  induction items with
  | nil => rfl
  | cons j js ih => rw [canonicalItems, ih, List.map_cons]

theorem nestingItems_le {items : List Json} {d : Nat} :
    nestingItems items ≤ d ↔ ∀ j ∈ items, j.nesting ≤ d := by
  induction items with
  | nil => simp [nestingItems]
  | cons j js ih => rw [nestingItems, Nat.max_le, ih, List.forall_mem_cons]

theorem nestingMembers_le {ms : List (String × Json)} {d : Nat} :
    nestingMembers ms ≤ d ↔ ∀ m ∈ ms, m.2.nesting ≤ d := by
  induction ms with
  | nil => simp [nestingMembers]
  | cons m ms ih => rw [nestingMembers, Nat.max_le, ih, List.forall_mem_cons]

theorem mem_numbersItems {items : List Json} {n : Number} :
    n ∈ numbersItems items ↔ ∃ j ∈ items, n ∈ j.numbers := by
  induction items with
  | nil => simp [numbersItems]
  | cons j js ih => rw [numbersItems, List.mem_append, ih, List.exists_mem_cons_iff]

theorem mem_numbersMembers {ms : List (String × Json)} {n : Number} :
    n ∈ numbersMembers ms ↔ ∃ m ∈ ms, n ∈ m.2.numbers := by
  induction ms with
  | nil => simp [numbersMembers]
  | cons m ms ih => rw [numbersMembers, List.mem_append, ih, List.exists_mem_cons_iff]

theorem inRangeItems_eq_true {items : List Json} :
    inRangeItems items = true ↔ ∀ j ∈ items, j.inRange = true := by
  induction items with
  | nil => simp [inRangeItems]
  | cons j js ih => rw [inRangeItems, Bool.and_eq_true, ih, List.forall_mem_cons]

theorem inRangeMembers_eq_true {ms : List (String × Json)} :
    inRangeMembers ms = true ↔ ∀ m ∈ ms, m.2.inRange = true := by
  induction ms with
  | nil => simp [inRangeMembers]
  | cons m ms ih => rw [inRangeMembers, Bool.and_eq_true, ih, List.forall_mem_cons]

/-! ## Sorted members -/

/-- The names of the members ascend, so that none occurs twice. -/
def Sorted (ms : List (String × Json)) : Prop := ms.Pairwise fun a b => a.1 < b.1

theorem mem_insertMember {name : String} {j : Json} {ms : List (String × Json)}
    {m : String × Json} (h : m ∈ insertMember name j ms) : m = (name, j) ∨ m ∈ ms := by
  induction ms with
  | nil => exact .inl (List.mem_singleton.mp h)
  | cons p ms ih =>
    obtain ⟨n, v⟩ := p
    rw [insertMember] at h
    split_ifs at h
    · exact List.mem_cons.mp h
    · exact (List.mem_cons.mp h).imp_right (List.mem_cons_of_mem _)
    · rcases List.mem_cons.mp h with rfl | h
      · exact .inr List.mem_cons_self
      · exact (ih h).imp_right (List.mem_cons_of_mem _)

theorem sorted_insertMember {name : String} {j : Json} {ms : List (String × Json)} (h : Sorted ms) :
    Sorted (insertMember name j ms) := by
  induction ms with
  | nil => exact List.pairwise_singleton ..
  | cons p ms ih =>
    obtain ⟨n, v⟩ := p
    obtain ⟨hfirst, hrest⟩ := List.pairwise_cons.mp h
    rw [insertMember]
    split_ifs with hlt heq
    · refine List.pairwise_cons.mpr ⟨fun m hm => ?_, h⟩
      rcases List.mem_cons.mp hm with rfl | hm
      · exact hlt
      · exact lt_trans hlt (hfirst m hm)
    · subst heq
      exact List.pairwise_cons.mpr ⟨hfirst, hrest⟩
    · refine List.pairwise_cons.mpr ⟨fun m hm => ?_, ih hrest⟩
      rcases mem_insertMember hm with rfl | hm
      · exact lt_of_le_of_ne (not_lt.mp hlt) (Ne.symm heq)
      · exact hfirst m hm

/-- A member whose name comes after all others is put at the end. -/
theorem insertMember_last {name : String} {j : Json} {ms : List (String × Json)}
    (h : ∀ m ∈ ms, m.1 < name) : insertMember name j ms = ms ++ [(name, j)] := by
  induction ms with
  | nil => rfl
  | cons p ms ih =>
    obtain ⟨n, v⟩ := p
    have hn := h (n, v) List.mem_cons_self
    rw [insertMember, if_neg (lt_asymm hn), if_neg (ne_of_gt hn),
      ih fun m hm => h m (List.mem_cons_of_mem _ hm)]
    rfl

theorem mem_canonicalMembers {ms sorted : List (String × Json)} {m : String × Json}
    (h : m ∈ canonicalMembers ms sorted) :
    m ∈ sorted ∨ ∃ m₀ ∈ ms, m = (m₀.1, m₀.2.canonical) := by
  induction ms generalizing sorted with
  | nil => exact .inl h
  | cons p ms ih =>
    obtain ⟨name, j⟩ := p
    rw [canonicalMembers] at h
    rcases ih h with hm | ⟨m₀, hm₀, rfl⟩
    · rcases mem_insertMember hm with rfl | hm
      · exact .inr ⟨(name, j), List.mem_cons_self, rfl⟩
      · exact .inl hm
    · exact .inr ⟨m₀, List.mem_cons_of_mem _ hm₀, rfl⟩

theorem sorted_canonicalMembers {ms sorted : List (String × Json)} (h : Sorted sorted) :
    Sorted (canonicalMembers ms sorted) := by
  induction ms generalizing sorted with
  | nil => exact h
  | cons p ms ih =>
    obtain ⟨name, j⟩ := p
    rw [canonicalMembers]
    exact ih (sorted_insertMember h)

/-- Sorted members with canonical values are kept as they are. -/
theorem canonicalMembers_of_sorted {ms sorted : List (String × Json)} (h : Sorted (sorted ++ ms))
    (hc : ∀ m ∈ ms, m.2.canonical = m.2) : canonicalMembers ms sorted = sorted ++ ms := by
  induction ms generalizing sorted with
  | nil => exact (List.append_nil _).symm
  | cons p ms ih =>
    obtain ⟨name, j⟩ := p
    have hlast : ∀ m ∈ sorted, m.1 < name := fun m hm =>
      (List.pairwise_append.mp h).2.2 m hm (name, j) List.mem_cons_self
    have hsplit : sorted ++ (name, j) :: ms = sorted ++ [(name, j)] ++ ms := by
      rw [List.append_assoc, List.singleton_append]
    rw [canonicalMembers, hc (name, j) List.mem_cons_self, insertMember_last hlast]
    rw [hsplit] at h ⊢
    exact ih h fun m hm => hc m (List.mem_cons_of_mem _ hm)

/-! ## Canonical values -/

/-- **Canonical values.** A canonical value is its own canonical value. -/
theorem canonical_canonical (j : Json) : j.canonical.canonical = j.canonical := by
  induction j using induct with
  | hnull | hbool | hnum | hstr => rfl
  | harr items ih =>
    simp only [canonical, canonicalItems_eq_map, List.map_map]
    exact congrArg arr (List.map_congr_left fun j hj => ih j hj)
  | hobj ms ih =>
    have hsorted : Sorted (canonicalMembers ms []) := sorted_canonicalMembers List.Pairwise.nil
    have hvalues : ∀ m ∈ canonicalMembers ms [], m.2.canonical = m.2 := by
      intro m hm
      rcases mem_canonicalMembers hm with hm | ⟨m₀, hm₀, rfl⟩
      · cases hm
      · exact ih m₀ hm₀
    simp only [canonical]
    rw [canonicalMembers_of_sorted hsorted hvalues, List.nil_append]

theorem nesting_canonical_le (j : Json) : j.canonical.nesting ≤ j.nesting := by
  induction j using induct with
  | hnull | hbool | hnum | hstr => exact Nat.le_refl _
  | harr items ih =>
    have hitems : ∀ j ∈ items, j.nesting ≤ nestingItems items := nestingItems_le.mp (Nat.le_refl _)
    simp only [canonical, canonicalItems_eq_map, nesting]
    refine Nat.succ_le_succ (nestingItems_le.mpr fun j hj => ?_)
    obtain ⟨j₀, hj₀, rfl⟩ := List.mem_map.mp hj
    exact Nat.le_trans (ih j₀ hj₀) (hitems j₀ hj₀)
  | hobj ms ih =>
    have hmembers : ∀ m ∈ ms, m.2.nesting ≤ nestingMembers ms :=
      nestingMembers_le.mp (Nat.le_refl _)
    simp only [canonical, nesting]
    refine Nat.succ_le_succ (nestingMembers_le.mpr fun m hm => ?_)
    rcases mem_canonicalMembers hm with hm | ⟨m₀, hm₀, rfl⟩
    · cases hm
    · exact Nat.le_trans (ih m₀ hm₀) (hmembers m₀ hm₀)

theorem numbers_canonical_subset (j : Json) : j.canonical.numbers ⊆ j.numbers := by
  induction j using induct with
  | hnull | hbool | hnum | hstr => exact fun n hn => hn
  | harr items ih =>
    intro n hn
    simp only [canonical, canonicalItems_eq_map, numbers] at hn ⊢
    obtain ⟨j, hj, hn⟩ := mem_numbersItems.mp hn
    obtain ⟨j₀, hj₀, rfl⟩ := List.mem_map.mp hj
    exact mem_numbersItems.mpr ⟨j₀, hj₀, ih j₀ hj₀ hn⟩
  | hobj ms ih =>
    intro n hn
    simp only [canonical, numbers] at hn ⊢
    obtain ⟨m, hm, hn⟩ := mem_numbersMembers.mp hn
    rcases mem_canonicalMembers hm with hm | ⟨m₀, hm₀, rfl⟩
    · cases hm
    · exact mem_numbersMembers.mpr ⟨m₀, hm₀, ih m₀ hm₀ hn⟩

/-! ## Reading back -/

/-- A document is in range if and only if its doubles are finite. -/
theorem inRange_iff (j : Json) :
    j.inRange = true ↔ ∀ x, Number.float x ∈ j.numbers → x.isFinite = true := by
  induction j using induct with
  | hnull | hbool | hstr => simp [inRange, numbers]
  | hnum n => cases n <;> simp [inRange, numbers]
  | harr items ih =>
    simp only [inRange, numbers, inRangeItems_eq_true, mem_numbersItems]
    constructor
    · rintro h x ⟨j, hj, hx⟩
      exact (ih j hj).mp (h j hj) x hx
    · intro h j hj
      exact (ih j hj).mpr fun x hx => h x ⟨j, hj, hx⟩
  | hobj ms ih =>
    simp only [inRange, numbers, inRangeMembers_eq_true, mem_numbersMembers]
    constructor
    · rintro h x ⟨m, hm, hx⟩
      exact (ih m hm).mp (h m hm) x hx
    · intro h m hm
      exact (ih m hm).mpr fun x hx => h x ⟨m, hm, hx⟩

/-- **Reading back.** A document that was written is read as its canonical value. -/
theorem read?_write {j : Json} (hd : j.nesting ≤ maxDepth) (hn : ∀ n ∈ j.numbers, n.Rereads)
    (hr : j.inRange = true) : read? j.write = some j.canonical := by
  rw [read?, readDocument?_write hd hn]
  simp only [hr, if_true]

end DiagnosticBroker.Json
