import DiagnosticBroker.Text.Numeral
import DiagnosticBroker.Json.Reader

/-!
# Reading numerals that were written

A number is written with the digits of its decimal numeral. Readers go through a numeral digit by
digit and check at each that the value so far is in range, which it is if the number is.

Results:
* `Numeral.read_toDigits`: an unsigned numeral is read as the number that it was written for.
* `Numeral.spells_of_readU64?`, `Numeral.readU64?_of_spells`: which texts are read as a number.
* `Json.scanWhole_append`: the digits at the front of a text are taken, and no more.
-/

namespace DiagnosticBroker

/-! ## Digits -/

theorem Numeral.digit?_of_isDigit {c : Char} (h : c.isDigit = true) :
    Numeral.digit? c = some (c.toNat - '0'.toNat) := by
  simp only [Char.isDigit, Bool.and_eq_true, decide_eq_true_eq] at h
  have hrange : '0' ≤ c ∧ c ≤ '9' := h
  simp [Numeral.digit?, hrange]

theorem Json.digit?_of_isDigit {c : Char} (h : c.isDigit = true) :
    Json.digit? c = some (c.toNat - '0'.toNat) := Numeral.digit?_of_isDigit h

theorem Numeral.isDigit_of_digit? {c : Char} {d : Nat} (h : Numeral.digit? c = some d) :
    c.isDigit = true ∧ d = c.toNat - '0'.toNat := by
  unfold Numeral.digit? at h
  split at h <;> rename_i hc <;> cases h
  exact ⟨hc, rfl⟩

/-- More digits never make a numeral smaller. -/
theorem le_ofDigitChars (cs : List Char) (n : Nat) : n ≤ Nat.ofDigitChars 10 cs n := by
  induction cs generalizing n with
  | nil => exact Nat.le_refl n
  | cons c cs ih =>
    rw [Nat.ofDigitChars_cons]
    have hmore := ih (10 * n + (c.toNat - '0'.toNat))
    omega

theorem isDigit_of_mem_decimal {c : Char} {n : Nat} (h : c ∈ Nat.toDigits 10 n) :
    c.isDigit = true := Nat.isDigit_of_mem_toDigits (by omega) (by omega) h

/-! ## Unsigned numerals -/

namespace Numeral

theorem readDigits_eq_ok {bound : Nat} {cs : List Char} (n : Nat)
    (hd : ∀ c ∈ cs, c.isDigit = true) (hb : Nat.ofDigitChars 10 cs n ≤ bound) :
    readDigits bound n cs = .ok (Nat.ofDigitChars 10 cs n) := by
  induction cs generalizing n with
  | nil => rfl
  | cons c cs ih =>
    rw [Nat.ofDigitChars_cons] at hb ⊢
    have hmore := le_ofDigitChars cs (10 * n + (c.toNat - '0'.toNat))
    simp only [readDigits, digit?_of_isDigit (hd c List.mem_cons_self)]
    rw [if_pos (Nat.le_trans hmore hb)]
    exact ih _ (fun c hc => hd c (List.mem_cons_of_mem _ hc)) hb

/-- Digits are read digit by digit. -/
theorem read_digits {bound : Nat} {cs : List Char} (hne : cs ≠ [])
    (hd : ∀ c ∈ cs, c.isDigit = true) : read bound cs = readDigits bound 0 cs := by
  unfold read
  split
  · exact absurd rfl hne
  · exact absurd (hd '+' List.mem_cons_self) (by decide)
  · exact absurd (hd '-' List.mem_cons_self) (by decide)
  · exact absurd (hd '+' List.mem_cons_self) (by decide)
  · rfl

/-- A plus in front of a numeral makes no difference. -/
theorem read_plus {bound : Nat} {cs : List Char} (hne : cs ≠ []) :
    read bound ('+' :: cs) = readDigits bound 0 cs := by
  cases cs with
  | nil => exact absurd rfl hne
  | cons c cs => rfl

/-- **Numerals.** A number in range is read from the digits that it is written with. -/
theorem read_toDigits {bound n : Nat} (h : n ≤ bound) : read bound (Nat.toDigits 10 n) = .ok n := by
  have hd : ∀ c ∈ Nat.toDigits 10 n, c.isDigit = true := fun c hc => isDigit_of_mem_decimal hc
  rw [read_digits Nat.toDigits_ne_nil hd,
    readDigits_eq_ok 0 hd (by rwa [Nat.ofDigitChars_ten_toDigits]), Nat.ofDigitChars_ten_toDigits]

/-- What is read digit by digit are digits, and their value is in range. -/
theorem of_readDigits_eq_ok {bound n m : Nat} {cs : List Char}
    (h : readDigits bound n cs = .ok m) :
    (∀ c ∈ cs, c.isDigit = true) ∧ m = Nat.ofDigitChars 10 cs n := by
  induction cs generalizing n with
  | nil =>
    cases h
    exact ⟨by simp, rfl⟩
  | cons c cs ih =>
    unfold readDigits at h
    split at h
    · cases h
    · rename_i d hd
      obtain ⟨hc, rfl⟩ := isDigit_of_digit? hd
      split at h
      case isFalse => cases h
      obtain ⟨hcs, hm⟩ := ih h
      refine ⟨fun x hx => ?_, by rw [Nat.ofDigitChars_cons]; exact hm⟩
      rcases List.mem_cons.mp hx with rfl | hx
      · exact hc
      · exact hcs x hx

/-- A text spells a number if it consists of digits that have its value, and maybe a plus in front
of them. -/
def Spells (s : String) (n : Nat) : Prop :=
  ∃ ds, (s.toList = ds ∨ s.toList = '+' :: ds) ∧ ds ≠ [] ∧ (∀ c ∈ ds, c.isDigit = true) ∧
    Nat.ofDigitChars 10 ds 0 = n

theorem spells_of_readU64? {s : String} {n : Nat} (h : readU64? s = some n) : Spells s n := by
  have hread : read Word.maxU64 s.toList = .ok n := by
    unfold readU64? at h
    cases hr : read Word.maxU64 s.toList with
    | error e => simp [hr, Except.toOption] at h
    | ok m => simpa [hr, Except.toOption] using h
  unfold read at hread
  split at hread
  · cases hread
  · cases hread
  · cases hread
  · rename_i cs hplus heq
    obtain ⟨hd, rfl⟩ := of_readDigits_eq_ok hread
    refine ⟨cs, .inr heq, ?_, hd, rfl⟩
    rintro rfl
    exact hplus rfl
  · rename_i hne _ _ _
    obtain ⟨hd, rfl⟩ := of_readDigits_eq_ok hread
    exact ⟨_, .inl rfl, hne, hd, rfl⟩

theorem readU64?_of_spells {s : String} {n : Nat} (h : Spells s n) (hn : n ≤ Word.maxU64) :
    readU64? s = some n := by
  obtain ⟨ds, hs, hne, hd, rfl⟩ := h
  have hread : readDigits Word.maxU64 0 ds = .ok (Nat.ofDigitChars 10 ds 0) :=
    readDigits_eq_ok 0 hd hn
  suffices h : read Word.maxU64 s.toList = .ok (Nat.ofDigitChars 10 ds 0) by
    rw [readU64?, h]
    rfl
  rcases hs with hs | hs
  · rw [hs, read_digits hne hd, hread]
  · rw [hs, read_plus hne, hread]

end Numeral

namespace Json

/-- A text that goes on with no digit. -/
def EndsDigits (rest : List Char) : Prop := ∀ c, rest.head? = some c → digit? c = none

/-- The digits at the front of a text are taken as long as they fit 64 bits. -/
theorem scanWhole_append {cs rest : List Char} (n : Nat) (hd : ∀ c ∈ cs, c.isDigit = true)
    (hb : Nat.ofDigitChars 10 cs n ≤ Word.maxU64) (hr : EndsDigits rest) :
    scanWhole n (cs ++ rest) = (Nat.ofDigitChars 10 cs n, rest, true) := by
  induction cs generalizing n with
  | nil =>
    cases rest with
    | nil => rfl
    | cons c rest =>
      rw [List.nil_append, scanWhole, hr c rfl]
      rfl
  | cons c cs ih =>
    rw [Nat.ofDigitChars_cons] at hb ⊢
    have hmore := le_ofDigitChars cs (10 * n + (c.toNat - '0'.toNat))
    simp only [List.cons_append, scanWhole, digit?_of_isDigit (hd c List.mem_cons_self)]
    rw [if_pos (Nat.le_trans hmore hb)]
    exact ih _ (fun c hc => hd c (List.mem_cons_of_mem _ hc)) hb

end Json

end DiagnosticBroker
