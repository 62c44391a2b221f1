import DiagnosticBroker.Json.Writer
import DiagnosticBroker.Proofs.Text.Numerals
import Mathlib.Tactic.SplitIfs

/-!
# Strings and integers that were written are read back

A string is written between quotes, with an escape for what may not stand in it, and read back
character by character. An integer is written with its decimal digits; in a document it is followed by
a comma, by a closing bracket or brace, or by nothing, so that reading it ends where it was written
to.

Results:
* `readString_writeString`: a string is read back.
* `readNumber_int`: an integer of 64 bits is read back.
-/

namespace DiagnosticBroker.Json

/-! ## Strings -/

theorem hex4?_controls :
    ∀ n < 32, hex4? '0' '0' (hexDigit (n / 16)) (hexDigit (n % 16)) = some n := by decide

theorem readString_cons {c : Char} (acc rest : List Char) (hq : c ≠ '"') (hb : c ≠ '\\')
    (hc : ¬ c.toNat < 32) : readString acc (c :: rest) = readString (c :: acc) rest := by
  rw [readString.eq_def]
  split <;> rename_i heq
  · exact absurd (List.cons.inj heq).1 hq
  · exact absurd (List.cons.inj heq).1 hb
  · exact absurd (List.cons.inj heq).1 hb
  · obtain ⟨rfl, rfl⟩ := List.cons.inj heq
    rw [if_neg (by simp [hc, hb])]
  · cases heq

/-- A character is read back from its spelling in a string. -/
theorem readString_escapeChar (c : Char) (acc rest : List Char) :
    readString acc (escapeChar c ++ rest) = readString (c :: acc) rest := by
  unfold escapeChar
  split_ifs with hquote hback hb hf hn hr ht hcontrol
  · subst hquote
    simp [readString, shortEscape?]
  · subst hback
    simp [readString, shortEscape?]
  · have hc : c = Char.ofNat 8 := by rw [← hb, Char.ofNat_toNat]
    rw [hc]
    simp [readString, shortEscape?]
  · have hc : c = Char.ofNat 12 := by rw [← hf, Char.ofNat_toNat]
    rw [hc]
    simp [readString, shortEscape?]
  · subst hn
    simp [readString, shortEscape?]
  · subst hr
    simp [readString, shortEscape?]
  · subst ht
    simp [readString, shortEscape?]
  · have hhex := hex4?_controls c.toNat hcontrol
    have hlow : c.toNat < 0xD800 := by omega
    simp [readString, hhex, hlow, Char.ofNat_toNat]
  · exact readString_cons acc rest hquote hback hcontrol

theorem readString_flatMap (cs acc rest : List Char) :
    readString acc (cs.flatMap escapeChar ++ '"' :: rest) =
      some (String.ofList (acc.reverse ++ cs), rest) := by
  induction cs generalizing acc with
  | nil => simp [readString]
  | cons c cs ih =>
    rw [List.flatMap_cons, List.append_assoc, readString_escapeChar, ih, List.reverse_cons,
      List.append_assoc]
    rfl

/-- **Strings.** What stands after the opening quote of a string is read as the string. -/
theorem readString_writeString (s : String) (rest : List Char) :
    ∃ cs, writeString s ++ rest = '"' :: cs ∧ readString [] cs = some (s, rest) := by
  refine ⟨s.toList.flatMap escapeChar ++ '"' :: rest, ?_, ?_⟩
  · simp [writeString]
  · rw [readString_flatMap, List.reverse_nil, List.nil_append, String.ofList_toList]

/-! ## Integers -/

/-- A text that is at its end, or goes on after an item or a member. -/
def Delimited : List Char → Prop
  | [] => True
  | c :: _ => c = ',' ∨ c = ']' ∨ c = '\x7d'

theorem Delimited.endsDigits {rest : List Char} (h : Delimited rest) : EndsDigits rest := by
  intro c hc
  cases rest with
  | nil => cases hc
  | cons d rest =>
    obtain rfl := Option.some.inj hc
    rcases h with rfl | rfl | rfl <;> rfl

theorem afterWhole_eq {negative : Bool} {n : Nat} {rest : List Char} (h : Delimited rest) :
    readUnsigned.afterWhole negative n rest true = some (wholeNumber negative n, rest) := by
  cases rest with
  | nil => rfl
  | cons c rest => rcases h with rfl | rfl | rfl <;> simp [readUnsigned.afterWhole]

/-- No digits are read in front of a number. -/
theorem head?_toDigits_ne {n : Nat} (h : n ≠ 0) : (Nat.toDigits 10 n).head? ≠ some '0' := by
  induction n using Nat.strongRecOn with
  | ind n ih =>
    rw [Nat.toDigits_eq_if (by omega)]
    split_ifs with hn
    · have hdigit : ∀ d < 10, d ≠ 0 → [Nat.digitChar d].head? ≠ some '0' := by decide
      exact hdigit n hn h
    · intro hzero
      have hfront := ih (n / 10) (by omega) (by omega)
      cases hdigits : Nat.toDigits 10 (n / 10) with
      | nil => exact Nat.toDigits_ne_nil hdigits
      | cons c cs =>
        rw [hdigits] at hfront hzero
        exact hfront hzero

theorem isDigit_eq_true {c : Char} (h : c.isDigit = true) : isDigit c = true := by
  rw [isDigit, digit?_of_isDigit h]
  rfl

theorem readUnsigned_zero {negative : Bool} {rest : List Char} (hr : Delimited rest) :
    readUnsigned negative ('0' :: rest) = some (wholeNumber negative 0, rest) := by
  cases rest with
  | nil => rfl
  | cons c rest =>
    have hc : isDigit c = false := by
      rw [isDigit, hr.endsDigits c rfl]
      rfl
    rw [readUnsigned, hc]
    exact afterWhole_eq hr

theorem readUnsigned_toDigits (negative : Bool) {n : Nat} {rest : List Char}
    (hn : n ≤ Word.maxU64) (hr : Delimited rest) :
    readUnsigned negative (Nat.toDigits 10 n ++ rest) = some (wholeNumber negative n, rest) := by
  rcases Nat.eq_zero_or_pos n with rfl | hpos
  · exact readUnsigned_zero hr
  · have hscan : scanWhole 0 (Nat.toDigits 10 n ++ rest) = (n, rest, true) := by
      rw [scanWhole_append 0 (fun c hc => isDigit_of_mem_decimal hc)
        (by rwa [Nat.ofDigitChars_ten_toDigits]) hr.endsDigits, Nat.ofDigitChars_ten_toDigits]
    have hdigits : ∀ c ∈ Nat.toDigits 10 n, c.isDigit = true := fun c hc =>
      isDigit_of_mem_decimal hc
    have hzero := head?_toDigits_ne (Nat.ne_of_gt hpos)
    cases hcs : Nat.toDigits 10 n with
    | nil => exact absurd hcs Nat.toDigits_ne_nil
    | cons c cs =>
      rw [hcs] at hscan hdigits hzero
      have hc := isDigit_eq_true (hdigits c List.mem_cons_self)
      rw [List.cons_append] at hscan ⊢
      rw [readUnsigned.eq_def]
      split <;> rename_i heq
      · rw [(List.cons.inj heq).1] at hzero
        exact absurd rfl hzero
      · rw [← (List.cons.inj heq).1, if_pos hc, hscan]
        exact afterWhole_eq hr
      · cases heq

/-- **Integers.** An integer of 64 bits, signed or unsigned, is read from its numeral. -/
theorem readNumber_int {i : Int} {rest : List Char} (hl : Word.minI64 ≤ i) (hu : i ≤ Word.maxU64)
    (hr : Delimited rest) : readNumber ((Number.int i).write ++ rest) = some (.int i, rest) := by
  cases i with
  | ofNat n =>
    have hwrite : (Number.int (.ofNat n)).write = Nat.toDigits 10 n := by
      show (Nat.repr n).toList = _
      rw [Nat.repr_eq_ofList_toDigits, String.toList_ofList]
    have hread := readUnsigned_toDigits false (n := n) (Int.ofNat_le.mp hu) hr
    rw [hwrite, readNumber.eq_def]
    split <;> rename_i heq
    · have hminus : '-' ∈ Nat.toDigits 10 n := by
        cases hcs : Nat.toDigits 10 n with
        | nil => exact absurd hcs Nat.toDigits_ne_nil
        | cons c cs =>
          rw [hcs, List.cons_append] at heq
          rw [(List.cons.inj heq).1]
          exact List.mem_cons_self
      exact absurd (isDigit_of_mem_decimal hminus) (by decide)
    · rw [hread]
      rfl
  | negSucc n =>
    have hwrite : (Number.int (.negSucc n)).write = '-' :: Nat.toDigits 10 (n + 1) := by
      show ("-" ++ Nat.repr (n + 1)).toList = _
      simp [Nat.repr_eq_ofList_toDigits]
    have hbound : ((n + 1 : Nat) : Int) ≤ -Word.minI64 := by
      rw [Int.negSucc_eq] at hl
      omega
    have hfits : n + 1 ≤ Word.maxU64 :=
      Int.ofNat_le.mp (Int.le_trans hbound (by decide))
    have hread := readUnsigned_toDigits true hfits hr
    have hwhole : wholeNumber true (n + 1) = .int (.negSucc n) := by
      have hno : ¬ ((n + 1 : Nat) : Int) > -Word.minI64 := Int.not_lt.mpr hbound
      simp only [wholeNumber, if_true, hno, decide_false, Bool.or_false]
      rfl
    rw [hwrite, List.cons_append, readNumber, hread, hwhole]

end DiagnosticBroker.Json
