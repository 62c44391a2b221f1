import DiagnosticBroker.Text.Utf8
import Mathlib.Data.List.TakeDrop
import Mathlib.Data.List.TakeWhile
import Mathlib.Tactic.SplitIfs

/-!
# Text and its bytes

Reading the bytes of a text gives the text back. The bytes of a character other than a line feed hold
no line feed, so that lines can be told apart before their bytes are read.

Results:
* `next_encodeChar`: reading the bytes of a character.
* `decode_encode`: reading the bytes of a text.
* `decode_eq_ok_iff`: bytes that are read are the bytes of what is read.
* `toNat_of_mem_encodeChar`: a byte below 128 is a character of its own.
* `decodeArray_encode`: reading the array of the bytes of a string.
-/

namespace DiagnosticBroker.Utf8

/-! ## Single bytes -/

theorem toNat_ofNat {n : Nat} (h : n < 256) : (UInt8.ofNat n).toNat = n := by
  rw [UInt8.toNat_ofNat', Nat.mod_eq_of_lt h]

variable {a b : UInt8}

theorem le_iff : a ≤ b ↔ a.toNat ≤ b.toNat := UInt8.le_iff_toNat_le

theorem isTail_iff : isTail b = true ↔ 128 ≤ b.toNat ∧ b.toNat < 192 := by
  simp only [isTail, le_iff, Bool.and_eq_true, decide_eq_true_eq]
  change 128 ≤ b.toNat ∧ b.toNat ≤ 191 ↔ _
  omega

theorem isSecondOfThree_of (h : 128 ≤ b.toNat ∧ b.toNat < 192) (h₀ : a.toNat = 224 → 160 ≤ b.toNat)
    (h₁ : a.toNat = 237 → b.toNat < 160) : isSecondOfThree a b = true := by
  unfold isSecondOfThree
  split_ifs with ha ha'
  · have hb := h₀ (congrArg UInt8.toNat ha)
    simp only [le_iff, Bool.and_eq_true, decide_eq_true_eq]
    exact ⟨hb, Nat.le_of_lt_succ h.2⟩
  · have hb := h₁ (congrArg UInt8.toNat ha')
    simp only [le_iff, Bool.and_eq_true, decide_eq_true_eq]
    exact ⟨h.1, Nat.le_of_lt_succ hb⟩
  · exact isTail_iff.mpr h

theorem isSecondOfFour_of (h : 128 ≤ b.toNat ∧ b.toNat < 192) (h₀ : a.toNat = 240 → 144 ≤ b.toNat)
    (h₁ : a.toNat = 244 → b.toNat < 144) : isSecondOfFour a b = true := by
  unfold isSecondOfFour
  split_ifs with ha ha'
  · have hb := h₀ (congrArg UInt8.toNat ha)
    simp only [le_iff, Bool.and_eq_true, decide_eq_true_eq]
    exact ⟨hb, Nat.le_of_lt_succ h.2⟩
  · have hb := h₁ (congrArg UInt8.toNat ha')
    simp only [le_iff, Bool.and_eq_true, decide_eq_true_eq]
    exact ⟨h.1, Nat.le_of_lt_succ hb⟩
  · exact isTail_iff.mpr h

/-! ## One character -/

variable {c d e : UInt8} {rest : List UInt8}

theorem next_one (ha : a.toNat < 128) : next (a :: rest) = .char (Char.ofNat a.toNat) rest := by
  have hlt : a < 0x80 := UInt8.lt_iff_toNat_lt.mpr ha
  simp only [next, if_pos hlt]

theorem next_two (ha : 194 ≤ a.toNat ∧ a.toNat < 224) (hb : 128 ≤ b.toNat ∧ b.toNat < 192) :
    next (a :: b :: rest) = .char (Char.ofNat (a.toNat % 32 * 64 + payload b)) rest := by
  have h₁ : ¬ a < 0x80 := by rw [UInt8.lt_iff_toNat_lt]; change ¬ a.toNat < 128; omega
  have h₂ : (0xC2 ≤ a && a ≤ 0xDF) = true := by
    simp only [le_iff, Bool.and_eq_true, decide_eq_true_eq]
    exact ⟨ha.1, Nat.le_of_lt_succ ha.2⟩
  simp only [next, if_neg h₁, h₂, if_true, isTail_iff.mpr hb]

theorem next_three (ha : 224 ≤ a.toNat ∧ a.toNat < 240) (hb : isSecondOfThree a b = true)
    (hc : 128 ≤ c.toNat ∧ c.toNat < 192) :
    next (a :: b :: c :: rest) =
      .char (Char.ofNat (a.toNat % 16 * 4096 + payload b * 64 + payload c)) rest := by
  have h₁ : ¬ a < 0x80 := by rw [UInt8.lt_iff_toNat_lt]; change ¬ a.toNat < 128; omega
  have h₂ : ¬ (0xC2 ≤ a && a ≤ 0xDF) = true := by
    simp only [le_iff, Bool.and_eq_true, decide_eq_true_eq]
    change ¬ (194 ≤ a.toNat ∧ a.toNat ≤ 223)
    omega
  have h₃ : (0xE0 ≤ a && a ≤ 0xEF) = true := by
    simp only [le_iff, Bool.and_eq_true, decide_eq_true_eq]
    exact ⟨ha.1, Nat.le_of_lt_succ ha.2⟩
  simp only [next, if_neg h₁, if_neg h₂, h₃, if_true, hb, isTail_iff.mpr hc]

theorem next_four (ha : 240 ≤ a.toNat ∧ a.toNat < 245) (hb : isSecondOfFour a b = true)
    (hc : 128 ≤ c.toNat ∧ c.toNat < 192) (hd : 128 ≤ d.toNat ∧ d.toNat < 192) :
    next (a :: b :: c :: d :: rest) = .char (Char.ofNat
      (a.toNat % 8 * 262144 + payload b * 4096 + payload c * 64 + payload d)) rest := by
  have h₁ : ¬ a < 0x80 := by rw [UInt8.lt_iff_toNat_lt]; change ¬ a.toNat < 128; omega
  have h₂ : ¬ (0xC2 ≤ a && a ≤ 0xDF) = true := by
    simp only [le_iff, Bool.and_eq_true, decide_eq_true_eq]
    change ¬ (194 ≤ a.toNat ∧ a.toNat ≤ 223)
    omega
  have h₃ : ¬ (0xE0 ≤ a && a ≤ 0xEF) = true := by
    simp only [le_iff, Bool.and_eq_true, decide_eq_true_eq]
    change ¬ (224 ≤ a.toNat ∧ a.toNat ≤ 239)
    omega
  have h₄ : (0xF0 ≤ a && a ≤ 0xF4) = true := by
    simp only [le_iff, Bool.and_eq_true, decide_eq_true_eq]
    exact ⟨ha.1, Nat.le_of_lt_succ ha.2⟩
  simp only [next, if_neg h₁, if_neg h₂, if_neg h₃, h₄, if_true, hb, isTail_iff.mpr hc,
    isTail_iff.mpr hd]

theorem toNat_tail {n : Nat} (h : n < 64) : (UInt8.ofNat (n + 128)).toNat = n + 128 :=
  toNat_ofNat (by omega)

theorem payload_tail {n : Nat} (h : n < 64) : payload (UInt8.ofNat (n + 128)) = n := by
  rw [payload, toNat_tail h]
  omega

variable {v : Nat}

theorem next_of_lt_2048 (h : 128 ≤ v ∧ v < 2048) :
    next (UInt8.ofNat (v / 64 % 32 + 192) :: UInt8.ofNat (v % 64 + 128) :: rest) =
      .char (Char.ofNat v) rest := by
  have hfirst : (UInt8.ofNat (v / 64 % 32 + 192)).toNat = v / 64 % 32 + 192 :=
    toNat_ofNat (by omega)
  have hlast : v % 64 < 64 := Nat.mod_lt _ (by decide)
  rw [next_two (by omega) (by rw [toNat_tail hlast]; omega), payload_tail hlast, hfirst]
  have hsum : (v / 64 % 32 + 192) % 32 * 64 + v % 64 = v := by omega
  rw [hsum]

theorem next_of_lt_65536 (h : 2048 ≤ v ∧ v < 65536) (hs : v < 55296 ∨ 57344 ≤ v) :
    next (UInt8.ofNat (v / 4096 % 16 + 224) :: UInt8.ofNat (v / 64 % 64 + 128) ::
      UInt8.ofNat (v % 64 + 128) :: rest) = .char (Char.ofNat v) rest := by
  have hfirst : (UInt8.ofNat (v / 4096 % 16 + 224)).toNat = v / 4096 % 16 + 224 :=
    toNat_ofNat (by omega)
  have hmiddle : v / 64 % 64 < 64 := Nat.mod_lt _ (by decide)
  have hlast : v % 64 < 64 := Nat.mod_lt _ (by decide)
  have hsecond : isSecondOfThree (UInt8.ofNat (v / 4096 % 16 + 224))
      (UInt8.ofNat (v / 64 % 64 + 128)) = true := by
    refine isSecondOfThree_of ?_ (fun h₀ => ?_) fun h₁ => ?_
    · rw [toNat_tail hmiddle]
      omega
    · rw [hfirst] at h₀
      rw [toNat_tail hmiddle]
      omega
    · rw [hfirst] at h₁
      rw [toNat_tail hmiddle]
      omega
  rw [next_three (by omega) hsecond (by rw [toNat_tail hlast]; omega), payload_tail hmiddle,
    payload_tail hlast, hfirst]
  have hsum : (v / 4096 % 16 + 224) % 16 * 4096 + v / 64 % 64 * 64 + v % 64 = v := by omega
  rw [hsum]

theorem next_of_lt_1114112 (h : 65536 ≤ v ∧ v < 1114112) :
    next (UInt8.ofNat (v / 262144 % 8 + 240) :: UInt8.ofNat (v / 4096 % 64 + 128) ::
      UInt8.ofNat (v / 64 % 64 + 128) :: UInt8.ofNat (v % 64 + 128) :: rest) =
        .char (Char.ofNat v) rest := by
  have hfirst : (UInt8.ofNat (v / 262144 % 8 + 240)).toNat = v / 262144 % 8 + 240 :=
    toNat_ofNat (by omega)
  have htwo : v / 4096 % 64 < 64 := Nat.mod_lt _ (by decide)
  have hthree : v / 64 % 64 < 64 := Nat.mod_lt _ (by decide)
  have hlast : v % 64 < 64 := Nat.mod_lt _ (by decide)
  have hsecond : isSecondOfFour (UInt8.ofNat (v / 262144 % 8 + 240))
      (UInt8.ofNat (v / 4096 % 64 + 128)) = true := by
    refine isSecondOfFour_of ?_ (fun h₀ => ?_) fun h₁ => ?_
    · rw [toNat_tail htwo]
      omega
    · rw [hfirst] at h₀
      rw [toNat_tail htwo]
      omega
    · rw [hfirst] at h₁
      rw [toNat_tail htwo]
      omega
  rw [next_four (by omega) hsecond (by rw [toNat_tail hthree]; omega)
    (by rw [toNat_tail hlast]; omega), payload_tail htwo, payload_tail hthree, payload_tail hlast,
    hfirst]
  have hsum : (v / 262144 % 8 + 240) % 8 * 262144 + v / 4096 % 64 * 4096 + v / 64 % 64 * 64 +
      v % 64 = v := by omega
  rw [hsum]

/-- Reading the bytes of a character gives the character. -/
theorem next_encodeChar (c : Char) (rest : List UInt8) :
    next (String.utf8EncodeChar c ++ rest) = .char c rest := by
  have hvalid : c.val.toNat < 55296 ∨ 57343 < c.val.toNat ∧ c.val.toNat < 1114112 := c.valid
  have hback : Char.ofNat c.val.toNat = c := Char.ofNat_toNat c
  simp only [String.utf8EncodeChar]
  split_ifs with h₁ h₂ h₃
  · have hfirst : (UInt8.ofNat c.val.toNat).toNat = c.val.toNat := toNat_ofNat (by omega)
    have hnext := @next_one (UInt8.ofNat c.val.toNat) rest (by omega)
    rwa [hfirst, hback] at hnext
  · exact (next_of_lt_2048 (by omega)).trans (by rw [hback]; rfl)
  · exact (next_of_lt_65536 (by omega) (by omega)).trans (by rw [hback]; rfl)
  · exact (next_of_lt_1114112 (by omega)).trans (by rw [hback]; rfl)

/-- A character is one byte if one of its bytes is below 128. -/
theorem toNat_of_mem_encodeChar {ch : Char} (h : b ∈ String.utf8EncodeChar ch)
    (hb : b.toNat < 128) : ch.toNat = b.toNat := by
  have htail : ∀ n, b = UInt8.ofNat (n % 64 + 128) → ch.toNat = b.toNat := by
    rintro n rfl
    rw [toNat_tail (Nat.mod_lt _ (by decide))] at hb
    omega
  have hfirst : ∀ n, b = UInt8.ofNat n → 128 ≤ n → n < 256 → ch.toNat = b.toNat := by
    rintro n rfl hn hn'
    rw [toNat_ofNat hn'] at hb
    omega
  simp only [String.utf8EncodeChar] at h
  split_ifs at h with h₁ h₂ h₃ <;> simp only [List.mem_cons, List.not_mem_nil, or_false] at h
  · subst h
    rw [toNat_ofNat (by omega)]
    rfl
  · rcases h with h | h
    · exact hfirst _ h (by omega) (by omega)
    · exact htail _ h
  · rcases h with h | h | h
    · exact hfirst _ h (by omega) (by omega)
    · exact htail _ h
    · exact htail _ h
  · rcases h with h | h | h | h
    · exact hfirst _ h (by omega) (by omega)
    · exact htail _ h
    · exact htail _ h
    · exact htail _ h

theorem encodeChar_of_lt {ch : Char} (h : ch.toNat < 128) :
    String.utf8EncodeChar ch = [UInt8.ofNat ch.toNat] := by
  have hle : ch.val.toNat ≤ 127 := Nat.le_of_lt_succ h
  simp only [String.utf8EncodeChar, if_pos hle]
  rfl

/-! ## Texts -/

theorem lossy_encode (cs : List Char) : lossy (encode cs) = cs := by
  induction cs with
  | nil =>
    rw [lossy]
    rfl
  | cons c cs ih =>
    have hnext : next (encode (c :: cs)) = .char c (encode cs) := by
      rw [encode, List.flatMap_cons]
      exact next_encodeChar c _
    rw [lossy]
    split <;> rename_i h <;> rw [hnext] at h <;> cases h
    rw [ih]

theorem fault?_encode (cs : List Char) (start : Nat) : fault? start (encode cs) = none := by
  induction cs generalizing start with
  | nil =>
    rw [fault?]
    rfl
  | cons c cs ih =>
    have hnext : next (encode (c :: cs)) = .char c (encode cs) := by
      rw [encode, List.flatMap_cons]
      exact next_encodeChar c _
    rw [fault?]
    split <;> rename_i h <;> rw [hnext] at h <;> cases h
    exact ih _

/-- Reading the bytes of a text gives the text. -/
theorem decode_encode (cs : List Char) : decode (encode cs) = .ok cs := by
  rw [decode, fault?_encode, lossy_encode]

theorem encode_append (cs ds : List Char) : encode (cs ++ ds) = encode cs ++ encode ds :=
  List.flatMap_append ..

theorem encode_concat {c : Char} (cs : List Char) (h : c.toNat < 128) :
    encode (cs ++ [c]) = encode cs ++ [UInt8.ofNat c.toNat] := by
  rw [encode_append]
  simp [encode, encodeChar_of_lt h]

theorem encode_eq_nil {cs : List Char} : encode cs = [] ↔ cs = [] := by
  constructor
  · intro h
    cases cs with
    | nil => rfl
    | cons c cs =>
      have hc := (List.append_eq_nil_iff.mp h).1
      exact absurd hc String.utf8EncodeChar_ne_nil
  · rintro rfl
    rfl

/-! ## What was read -/

variable {bytes : List UInt8}

theorem val_ofNat (h : v < 55296 ∨ 57344 ≤ v ∧ v < 1114112) : (Char.ofNat v).val.toNat = v := by
  have hvalid : v.isValidChar := by
    rcases h with h | h
    · exact .inl h
    · exact .inr ⟨by omega, h.2⟩
  have hchar : Char.ofNat v = Char.ofNatAux v hvalid := dif_pos hvalid
  rw [hchar]
  rfl

theorem ofNat_eq {n : Nat} (b : UInt8) (h : n = b.toNat) : UInt8.ofNat n = b := by
  rw [h, UInt8.ofNat_toNat]

theorem encodeChar_one (ha : a.toNat < 128) : String.utf8EncodeChar (Char.ofNat a.toNat) = [a] := by
  have hv : (Char.ofNat a.toNat).toNat = a.toNat := val_ofNat (by omega)
  rw [encodeChar_of_lt (by rw [hv]; exact ha), hv, UInt8.ofNat_toNat]

theorem encodeChar_two (ha : 194 ≤ a.toNat ∧ a.toNat < 224) (hb : 128 ≤ b.toNat ∧ b.toNat < 192) :
    String.utf8EncodeChar (Char.ofNat (a.toNat % 32 * 64 + payload b)) = [a, b] := by
  unfold payload
  generalize hv : a.toNat % 32 * 64 + b.toNat % 64 = v
  simp only [String.utf8EncodeChar, @val_ofNat v (by omega)]
  rw [if_neg (by omega), if_pos (by omega), ofNat_eq a (by omega), ofNat_eq b (by omega)]

theorem of_isSecondOfThree (hb : isSecondOfThree a b = true) :
    128 ≤ b.toNat ∧ b.toNat < 192 ∧ (a.toNat = 224 → 160 ≤ b.toNat) ∧
      (a.toNat = 237 → b.toNat < 160) := by
  unfold isSecondOfThree at hb
  split_ifs at hb with h₀ h₁ <;>
    simp only [isTail, le_iff, Bool.and_eq_true, decide_eq_true_eq] at hb
  · have ha : a.toNat = 224 := congrArg UInt8.toNat h₀
    change 160 ≤ b.toNat ∧ b.toNat ≤ 191 at hb
    omega
  · have ha : a.toNat = 237 := congrArg UInt8.toNat h₁
    change 128 ≤ b.toNat ∧ b.toNat ≤ 159 at hb
    omega
  · have ha₀ : a.toNat ≠ 224 := fun h => h₀ (UInt8.toNat_inj.mp h)
    have ha₁ : a.toNat ≠ 237 := fun h => h₁ (UInt8.toNat_inj.mp h)
    change 128 ≤ b.toNat ∧ b.toNat ≤ 191 at hb
    omega

theorem of_isSecondOfFour (hb : isSecondOfFour a b = true) :
    128 ≤ b.toNat ∧ b.toNat < 192 ∧ (a.toNat = 240 → 144 ≤ b.toNat) ∧
      (a.toNat = 244 → b.toNat < 144) := by
  unfold isSecondOfFour at hb
  split_ifs at hb with h₀ h₁ <;>
    simp only [isTail, le_iff, Bool.and_eq_true, decide_eq_true_eq] at hb
  · have ha : a.toNat = 240 := congrArg UInt8.toNat h₀
    change 144 ≤ b.toNat ∧ b.toNat ≤ 191 at hb
    omega
  · have ha : a.toNat = 244 := congrArg UInt8.toNat h₁
    change 128 ≤ b.toNat ∧ b.toNat ≤ 143 at hb
    omega
  · have ha₀ : a.toNat ≠ 240 := fun h => h₀ (UInt8.toNat_inj.mp h)
    have ha₁ : a.toNat ≠ 244 := fun h => h₁ (UInt8.toNat_inj.mp h)
    change 128 ≤ b.toNat ∧ b.toNat ≤ 191 at hb
    omega

theorem encodeChar_three (ha : 224 ≤ a.toNat ∧ a.toNat < 240) (hb : isSecondOfThree a b = true)
    (hc : 128 ≤ c.toNat ∧ c.toNat < 192) :
    String.utf8EncodeChar
      (Char.ofNat (a.toNat % 16 * 4096 + payload b * 64 + payload c)) = [a, b, c] := by
  obtain ⟨hlow, hhigh, hlong, hsurrogate⟩ := of_isSecondOfThree hb
  unfold payload
  generalize hv : a.toNat % 16 * 4096 + b.toNat % 64 * 64 + c.toNat % 64 = v
  simp only [String.utf8EncodeChar, @val_ofNat v (by omega)]
  rw [if_neg (by omega), if_neg (by omega), if_pos (by omega), ofNat_eq a (by omega),
    ofNat_eq b (by omega), ofNat_eq c (by omega)]

theorem encodeChar_four (ha : 240 ≤ a.toNat ∧ a.toNat < 245) (hb : isSecondOfFour a b = true)
    (hc : 128 ≤ c.toNat ∧ c.toNat < 192) (hd : 128 ≤ d.toNat ∧ d.toNat < 192) :
    String.utf8EncodeChar (Char.ofNat
      (a.toNat % 8 * 262144 + payload b * 4096 + payload c * 64 + payload d)) = [a, b, c, d] := by
  obtain ⟨hlow, hhigh, hlong, hlarge⟩ := of_isSecondOfFour hb
  unfold payload
  generalize hv : a.toNat % 8 * 262144 + b.toNat % 64 * 4096 + c.toNat % 64 * 64 + d.toNat % 64 = v
  simp only [String.utf8EncodeChar, @val_ofNat v (by omega)]
  rw [if_neg (by omega), if_neg (by omega), if_neg (by omega), ofNat_eq a (by omega),
    ofNat_eq b (by omega), ofNat_eq c (by omega), ofNat_eq d (by omega)]

/-- A character that was read is what the bytes spell. -/
theorem eq_encodeChar_of_next {x : Char} (h : next bytes = .char x rest) :
    bytes = String.utf8EncodeChar x ++ rest := by
  unfold next at h
  split at h
  · cases h
  rename_i a bytes
  split_ifs at h with h₁ h₂ h₃ h₄
  · cases h
    rw [encodeChar_one (UInt8.lt_iff_toNat_lt.mp h₁)]
    rfl
  · simp only [le_iff, Bool.and_eq_true, decide_eq_true_eq] at h₂
    change 194 ≤ a.toNat ∧ a.toNat ≤ 223 at h₂
    split at h
    · cases h
    · split_ifs at h with hb
      cases h
      rw [encodeChar_two (by omega) (isTail_iff.mp hb)]
      rfl
  · simp only [le_iff, Bool.and_eq_true, decide_eq_true_eq] at h₃
    change 224 ≤ a.toNat ∧ a.toNat ≤ 239 at h₃
    split at h
    · cases h
    · split_ifs at h with hb
      split at h
      · cases h
      · split_ifs at h with hc
        cases h
        rw [encodeChar_three (by omega) hb (isTail_iff.mp hc)]
        rfl
  · simp only [le_iff, Bool.and_eq_true, decide_eq_true_eq] at h₄
    change 240 ≤ a.toNat ∧ a.toNat ≤ 244 at h₄
    split at h
    · cases h
    · split_ifs at h with hb
      split at h
      · cases h
      · split_ifs at h with hc
        split at h
        · cases h
        · split_ifs at h with hd
          cases h
          rw [encodeChar_four (by omega) hb (isTail_iff.mp hc) (isTail_iff.mp hd)]
          rfl

theorem eq_nil_of_next (h : next bytes = .done) : bytes = [] := by
  unfold next at h
  split at h
  · rfl
  · repeat' split at h
    all_goals cases h

/-- Bytes without a fault are those of the text that is read. -/
theorem encode_lossy (start : Nat) (bytes : List UInt8) (h : fault? start bytes = none) :
    encode (lossy bytes) = bytes := by
  induction bytes using lossy.induct generalizing start with
  | case1 bytes hnext =>
    rw [lossy]
    split <;> rename_i h' <;> rw [hnext] at h' <;> cases h'
    exact (eq_nil_of_next hnext).symm
  | case2 bytes x rest hnext _ ih =>
    rw [fault?] at h
    split at h <;> rename_i h' <;> rw [hnext] at h' <;> cases h'
    rw [lossy]
    split <;> rename_i h' <;> rw [hnext] at h' <;> cases h'
    rw [encode, List.flatMap_cons, eq_encodeChar_of_next hnext]
    exact congrArg _ (ih _ h)
  | case3 bytes n rest hnext =>
    rw [fault?] at h
    split at h <;> rename_i h' <;> rw [hnext] at h' <;> cases h'
    cases h
  | case4 bytes hnext =>
    rw [fault?] at h
    split at h <;> rename_i h' <;> rw [hnext] at h' <;> cases h'
    cases h

/-- A byte below 128 stands for its character. -/
theorem mem_of_mem_encode {cs : List Char} (h : b ∈ encode cs) (hb : b.toNat < 128) :
    Char.ofNat b.toNat ∈ cs := by
  obtain ⟨c, hc, hbc⟩ := List.mem_flatMap.mp h
  rw [← toNat_of_mem_encodeChar hbc hb, Char.ofNat_toNat]
  exact hc

theorem feed_not_mem_encode {cs : List Char} (h : '\n' ∉ cs) : 10 ∉ encode cs := fun hb =>
  h (mem_of_mem_encode hb (by decide))

/-- Bytes hold no line feed, or they hold one after some bytes that are none. -/
theorem split_at_feed (bytes : List UInt8) :
    10 ∉ bytes ∨ ∃ front rest, bytes = front ++ 10 :: rest ∧ 10 ∉ front := by
  by_cases h : 10 ∈ bytes
  · exact .inr (List.eq_append_cons_of_mem h)
  · exact .inl h

/-- The bytes up to the first line feed. -/
theorem span_feed {front : List UInt8} (hf : 10 ∉ front) (rest : List UInt8) :
    (front ++ 10 :: rest).span (· ≠ 10) = (front, 10 :: rest) := by
  have hfront : ∀ b ∈ front, decide (b ≠ 10) = true := fun b hb =>
    decide_eq_true fun h => hf (h ▸ hb)
  rw [List.span_eq_takeWhile_dropWhile, List.takeWhile_append_of_pos hfront,
    List.dropWhile_append_of_pos hfront]
  simp

theorem span_of_not_mem {bytes : List UInt8} (hf : 10 ∉ bytes) :
    bytes.span (· ≠ 10) = (bytes, []) := by
  have hall : ∀ b ∈ bytes, decide (b ≠ 10) = true := fun b hb =>
    decide_eq_true fun h => hf (h ▸ hb)
  rw [List.span_eq_takeWhile_dropWhile, List.takeWhile_eq_self_iff.mpr hall,
    List.dropWhile_eq_nil_iff.mpr hall]

/-! ## Byte arrays -/

theorem toList_loop (bytes : ByteArray) (i : Nat) (acc : List UInt8) :
    ByteArray.toList.loop bytes i acc = acc.reverse ++ bytes.data.toList.drop i := by
  induction i, acc using ByteArray.toList.loop.induct bytes with
  | case1 i acc hlt ih =>
    have hi : i < bytes.data.toList.length := by simpa using hlt
    have hget : bytes.get! i = bytes.data.toList[i] := by
      simp only [ByteArray.get!, Array.getElem_toList]
      exact getElem!_pos bytes.data i (by simpa using hlt)
    rw [ByteArray.toList.loop, if_pos hlt, ih, List.drop_eq_getElem_cons hi, hget]
    simp
  | case2 i acc hge =>
    have hlen : bytes.data.toList.length ≤ i := by simpa using hge
    rw [ByteArray.toList.loop, if_neg hge, List.drop_eq_nil_of_le hlen, List.append_nil]

/-- The bytes of a string are those of its characters. -/
theorem data_toUTF8 (s : String) : s.toUTF8.data = (encode s.toList).toArray := by
  rw [String.toUTF8_eq_toByteArray, ← String.utf8Encode_toList]
  exact List.data_toByteArray

theorem toList_toUTF8 (s : String) : s.toUTF8.toList = encode s.toList := by
  rw [ByteArray.toList, toList_loop, data_toUTF8]
  rfl

theorem length_encode (s : String) : (encode s.toList).length = s.utf8ByteSize := by
  have hsize : s.toUTF8.data.size = s.utf8ByteSize := String.size_toByteArray
  rwa [data_toUTF8] at hsize

/-- The array of the bytes of a string is read as the string. -/
theorem decodeArray_encode (s : String) : decodeArray ⟨(encode s.toList).toArray⟩ = .ok s := by
  have harray : (⟨(encode s.toList).toArray⟩ : ByteArray) = s.toByteArray := by
    rw [← data_toUTF8]
    rfl
  have hread : String.fromUTF8? s.toByteArray = some s := dif_pos s.isValidUTF8
  rw [harray, decodeArray, hread]

end DiagnosticBroker.Utf8
