import DiagnosticBroker.Assoc
import DiagnosticBroker.Proofs.Json.Canonical
import DiagnosticBroker.Proofs.Json.Records

/-!
# What reading a document comes to

What is read is nested no deeper than allowed, and its integers are of 64 bits: a numeral that does
not fit is read as a double.

Results:
* `fits_of_readNumber`: an integer that is read is of 64 bits.
* `sound_of_read?`: what a text is read as.
-/

namespace DiagnosticBroker.Json

/-! ## Numbers -/

/-- An integer of 64 bits, signed or unsigned, or a double. -/
def Number.Fits : Number → Prop
  | .int i => Word.minI64 ≤ i ∧ i ≤ Word.maxU64
  | .float _ => True

theorem scanWhole_le {cs : List Char} (n : Nat) (h : n ≤ Word.maxU64) :
    (scanWhole n cs).1 ≤ Word.maxU64 := by
  induction cs generalizing n with
  | nil => exact h
  | cons c cs ih =>
    rw [scanWhole]
    split
    · exact h
    · split_ifs with hfits
      · exact ih _ hfits
      · exact h

theorem fits_wholeNumber (negative : Bool) {n : Nat} (h : n ≤ Word.maxU64) :
    (wholeNumber negative n).Fits := by
  unfold wholeNumber
  split_ifs with hneg hbig
  · trivial
  · simp only [Bool.or_eq_true, decide_eq_true_eq, not_or, Int.not_lt] at hbig
    constructor
    · exact Int.le_neg_of_le_neg hbig.2
    · have hzero : -(n : Int) ≤ 0 := by omega
      exact Int.le_trans hzero (by decide)
  · exact ⟨Int.le_trans (by decide) (Int.natCast_nonneg n), Int.ofNat_le.mpr h⟩

theorem fits_finishFloat {negative : Bool} {s : Scan} {n : Number} {rest : List Char}
    (h : finishFloat negative s = some (n, rest)) : n.Fits := by
  unfold finishFloat at h
  split at h
  · split_ifs at h with he
    · simp only at h
      split_ifs at h <;> (cases h; trivial)
    · cases h
      trivial
  · cases h
    trivial

theorem fits_afterWhole {negative fits : Bool} {m : Nat} {cs : List Char} {n : Number}
    {rest : List Char} (hm : m ≤ Word.maxU64)
    (h : readUnsigned.afterWhole negative m cs fits = some (n, rest)) : n.Fits := by
  unfold readUnsigned.afterWhole at h
  dsimp only at h
  generalize (if fits then [] else cs.takeWhile isDigit) = more at h
  generalize (if fits then cs else cs.dropWhile isDigit) = after at h
  split at h
  · split at h
    · split_ifs at h
      exact fits_finishFloat h
    · cases h
  · split_ifs at h
    · exact fits_finishFloat h
    · cases h
      exact fits_wholeNumber negative hm
  · split_ifs at h
    · cases h
      exact fits_wholeNumber negative hm
    · exact fits_finishFloat h

theorem fits_of_readUnsigned {negative : Bool} {cs : List Char} {n : Number} {rest : List Char}
    (h : readUnsigned negative cs = some (n, rest)) : n.Fits := by
  unfold readUnsigned at h
  split at h
  · split_ifs at h
    exact fits_afterWhole (by decide) h
  · split_ifs at h
    split at h
    rename_i m after fits hscan
    have hm : m ≤ Word.maxU64 := by
      rw [show m = (scanWhole 0 _).1 from congrArg (·.1) hscan.symm]
      exact scanWhole_le 0 (by decide)
    exact fits_afterWhole hm h
  · cases h

theorem fits_of_readNumber {cs : List Char} {n : Number} {rest : List Char}
    (h : readNumber cs = some (n, rest)) : n.Fits := by
  unfold readNumber at h
  split at h <;> exact fits_of_readUnsigned h

/-! ## Documents -/

/-- A document is nested no deeper than a bound, and its integers are of 64 bits. -/
structure Sound (depth : Nat) (j : Json) : Prop where
  nesting : j.nesting ≤ depth
  numbers : ∀ n ∈ j.numbers, n.Fits

theorem sound_arr {depth : Nat} {items : List Json} (h : ∀ j ∈ items, j.Sound depth) :
    (arr items).Sound (depth + 1) where
  nesting := Nat.succ_le_succ (nestingItems_le.mpr fun j hj => (h j hj).nesting)
  numbers n hn := by
    obtain ⟨j, hj, hn⟩ := mem_numbersItems.mp hn
    exact (h j hj).numbers n hn

theorem sound_obj {depth : Nat} {ms : List (String × Json)} (h : ∀ m ∈ ms, m.2.Sound depth) :
    (obj ms).Sound (depth + 1) where
  nesting := Nat.succ_le_succ (nestingMembers_le.mpr fun m hm => (h m hm).nesting)
  numbers n hn := by
    obtain ⟨m, hm, hn⟩ := mem_numbersMembers.mp hn
    exact (h m hm).numbers n hn

/-- What a document says of a field is nested less deeply than the document. -/
theorem sound_field {depth : Nat} {j v : Json} {k : Key} (hs : j.Sound (depth + 1))
    (h : j.field? k = some v) : v.Sound depth := by
  cases j with
  | null | bool | num | str => cases h
  | arr items =>
    have hv : v ∈ items := List.mem_of_getElem? h
    refine ⟨nestingItems_le.mp (Nat.le_of_succ_le_succ hs.nesting) v hv, fun n hn => ?_⟩
    exact hs.numbers n (mem_numbersItems.mpr ⟨v, hv, hn⟩)
  | obj ms =>
    have hv : (k.name, v) ∈ ms := Assoc.mem_of_lookup h
    refine ⟨nestingMembers_le.mp (Nat.le_of_succ_le_succ hs.nesting) _ hv, fun n hn => ?_⟩
    exact hs.numbers n (mem_numbersMembers.mpr ⟨_, hv, hn⟩)

/-- What the readers of values, items and members do with some fuel. -/
structure SoundWith (fuel : Nat) : Prop where
  value : ∀ {depth cs j rest}, readValue depth fuel cs = .ok (j, rest) → j.Sound depth
  items : ∀ {depth acc cs j rest}, (∀ i ∈ acc, i.Sound depth) →
    readItems depth fuel acc cs = .ok (j, rest) → j.Sound (depth + 1)
  members : ∀ {depth acc cs j rest}, (∀ m ∈ acc, m.2.Sound depth) →
    readMembers depth fuel acc cs = .ok (j, rest) → j.Sound (depth + 1)

theorem SoundWith.readValue_succ {fuel depth : Nat} {cs rest : List Char} {j : Json}
    (ih : SoundWith fuel) (h : readValue depth (fuel + 1) cs = .ok (j, rest)) : j.Sound depth := by
  have hatom {a : Json} (hnest : a.nesting = 0) (hnum : a.numbers = []) : a.Sound depth :=
    ⟨hnest ▸ Nat.zero_le _, by rw [hnum]; nofun⟩
  rw [readValue] at h
  split at h
  · cases h
    exact hatom rfl rfl
  · cases h
    exact hatom rfl rfl
  · cases h
    exact hatom rfl rfl
  · split at h <;> cases h
    exact hatom rfl rfl
  · split at h
    · cases h
    · split at h
      · cases h
        exact sound_arr (List.forall_mem_nil _)
      · exact ih.items (List.forall_mem_nil _) h
  · split at h
    · cases h
    · split at h
      · cases h
        exact sound_obj (List.forall_mem_nil _)
      · exact ih.members (List.forall_mem_nil _) h
  · split at h <;> rename_i hn
    · cases h
      refine ⟨Nat.zero_le _, fun m hm => ?_⟩
      rw [List.mem_singleton.mp hm]
      exact fits_of_readNumber hn
    · cases h

theorem SoundWith.readItems_succ {fuel depth : Nat} {acc : List Json} {cs rest : List Char}
    {j : Json} (ih : SoundWith fuel) (hacc : ∀ i ∈ acc, i.Sound depth)
    (h : readItems depth (fuel + 1) acc cs = .ok (j, rest)) : j.Sound (depth + 1) := by
  rw [readItems] at h
  split at h <;> rename_i hvalue
  · cases h
  · have hcons := List.forall_mem_cons.mpr ⟨ih.value hvalue, hacc⟩
    split at h
    · exact ih.items hcons h
    · cases h
      exact sound_arr fun i hi => hcons i (List.mem_reverse.mp hi)
    · cases h

theorem SoundWith.readMembers_succ {fuel depth : Nat} {acc : List (String × Json)}
    {cs rest : List Char} {j : Json} (ih : SoundWith fuel) (hacc : ∀ m ∈ acc, m.2.Sound depth)
    (h : readMembers depth (fuel + 1) acc cs = .ok (j, rest)) : j.Sound (depth + 1) := by
  rw [readMembers] at h
  split at h
  · split at h
    · cases h
    · split at h
      · split at h <;> rename_i hvalue
        · cases h
        · have hj := ih.value hvalue
          split at h
          · exact ih.members (List.forall_mem_cons.mpr ⟨hj, hacc⟩) h
          · cases h
            refine sound_obj fun m hm => ?_
            rcases List.mem_cons.mp (List.mem_reverse.mp hm) with rfl | hm
            · exact hj
            · exact hacc m hm
          · cases h
      · cases h
  · cases h

theorem soundWith (fuel : Nat) : SoundWith fuel := by
  induction fuel with
  | zero => exact ⟨nofun, (fun _ h => nomatch h), (fun _ h => nomatch h)⟩
  | succ fuel ih => exact ⟨ih.readValue_succ, ih.readItems_succ, ih.readMembers_succ⟩

theorem sound_of_readDocument? {cs : List Char} {j : Json} (h : readDocument? cs = some j) :
    j.Sound maxDepth := by
  unfold readDocument? at h
  split at h
  · rename_i document rest hread
    split_ifs at h
    cases h
    exact (soundWith _).value hread
  · cases h

/-! ## Values -/

/-- An integer of 64 bits, signed or unsigned, or a finite double. -/
def Number.IsValue : Number → Prop
  | .int i => Word.minI64 ≤ i ∧ i ≤ Word.maxU64
  | .float x => x.isFinite = true

/-- A value as it is held: members are sorted by name, and its numbers are numbers. -/
structure IsValue (j : Json) : Prop where
  canonical : j.canonical = j
  numbers : ∀ n ∈ j.numbers, n.IsValue

theorem inRange_of_numbers {j : Json} (h : ∀ n ∈ j.numbers, n.IsValue) : j.inRange = true :=
  (inRange_iff j).mpr fun _ hx => h _ hx

/-- The canonical form of a document that was read in full is a value. -/
theorem isValue_canonical {depth : Nat} {j : Json} (hs : j.Sound depth) (hr : j.inRange = true) :
    j.canonical.IsValue := by
  refine ⟨canonical_canonical j, fun n hn => ?_⟩
  have hmem := numbers_canonical_subset j hn
  cases n with
  | int i => exact hs.numbers _ hmem
  | float x => exact (inRange_iff j).mp hr x hmem

/-- A number that is no double is read back. -/
theorem Number.IsValue.rereads {n : Number} (h : n.IsValue)
    (hx : ∀ x, n = .float x → n.Rereads) : n.Rereads := by
  cases n with
  | int i => exact fun rest hr => readNumber_int h.1 h.2 hr
  | float x => exact hx x rfl

/-- **What is read.** A text is read as a value that is nested no deeper than allowed. -/
theorem sound_of_read? {cs : List Char} {j : Json} (h : read? cs = some j) :
    j.Sound maxDepth ∧ j.IsValue := by
  unfold read? at h
  split at h
  · rename_i document hdocument
    split_ifs at h with hr
    cases h
    have hs := sound_of_readDocument? hdocument
    refine ⟨⟨Nat.le_trans (nesting_canonical_le document) hs.nesting, fun n hn => ?_⟩,
      isValue_canonical hs hr⟩
    exact hs.numbers n (numbers_canonical_subset document hn)
  · cases h

end DiagnosticBroker.Json
