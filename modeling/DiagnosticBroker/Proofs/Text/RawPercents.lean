import DiagnosticBroker.Proofs.Text.Escapes

/-!
# Percent signs that escape nothing

A percent sign in an address need not begin an escape. A careful reader keeps such a sign and goes on
with the byte after it. The reader of this program takes the two bytes after a percent sign before it
knows whether they are digits; if they are not, it keeps the sign and drops the bytes. It agrees with
the careful one on a text if and only if the text is `Faithful`: each percent sign that its scan
meets begins an escape or is the last byte, or what is dropped comes back by chance, because a
decimal digit `d` is the byte that `%3d` escapes.

Results:
* `keepBytes`: the careful reader.
* `length_decodeBytes_le`: no bytes are made up.
* `decodeBytes_eq_iff`: where the two readers agree.
* `toPath_of_raw`: the paths of all addresses.
-/

namespace DiagnosticBroker.Uri

/-! ## The specification -/

/-- The bytes that escaped bytes stand for, read from left to right: an escape is replaced by its
byte, and every other byte is kept, also a percent sign that begins no escape and the bytes after
it. -/
def keepBytes : List UInt8 → List UInt8
  | 0x25 :: h :: l :: rest =>
    match hexValue? h, hexValue? l with
    | some x, some y => (x * 16 + y) :: keepBytes rest
    | _, _ => 0x25 :: keepBytes (h :: l :: rest)
  | b :: rest => b :: keepBytes rest
  | [] => []

/-- Nothing is lost when these bytes are read. -/
inductive Faithful : List UInt8 → Prop where
  | nil : Faithful []
  | plain {b : UInt8} {rest : List UInt8} (hb : b ≠ 0x25) (h : Faithful rest) : Faithful (b :: rest)
  | escape {h l x y : UInt8} {rest : List UInt8} (hx : hexValue? h = some x)
      (hy : hexValue? l = some y) (hrest : Faithful rest) : Faithful (0x25 :: h :: l :: rest)
  | last : Faithful [0x25]
  /-- Of `%%3d` the bytes `%3` are dropped, and `d` is what `%3d` escapes. -/
  | overlap {d : UInt8} {rest : List UInt8} (hd : 0x30 ≤ d ∧ d ≤ 0x39) (h : Faithful rest) :
      Faithful (0x25 :: 0x25 :: 0x33 :: d :: rest)
  /-- Of `%3%3d` the bytes `3%` are dropped, and `3d` is what `3%3d` stands for. -/
  | repeated {d : UInt8} {rest : List UInt8} (hd : 0x30 ≤ d ∧ d ≤ 0x39) (h : Faithful rest) :
      Faithful (0x25 :: 0x33 :: 0x25 :: 0x33 :: d :: rest)

/-! ## Digits -/

variable {b h l x y : UInt8} {rest bs : List UInt8}

theorem hexValue?_percent : hexValue? 0x25 = none := by decide

theorem ne_of_hexValue? (hx : hexValue? b = some x) : b ≠ 0x25 := by
  rintro rfl
  rw [hexValue?_percent] at hx
  cases hx

theorem toNat_of_hexValue? (hx : hexValue? b = some x) :
    (48 ≤ b.toNat ∧ b.toNat ≤ 57 ∧ b.toNat = x.toNat + 48) ∨
      (65 ≤ b.toNat ∧ b.toNat ≤ 70 ∧ b.toNat = x.toNat + 55) ∨
        (97 ≤ b.toNat ∧ b.toNat ≤ 102 ∧ b.toNat = x.toNat + 87) := by
  have hb := b.toNat_lt
  simp only [hexValue?, Bool.and_eq_true, decide_eq_true_eq, UInt8.le_iff_toNat_le,
    UInt8.toNat_ofNat] at hx
  split_ifs at hx with h₀ h₁ h₂ <;> cases hx <;>
    simp only [UInt8.toNat_sub, UInt8.toNat_ofNat] <;> omega

/-- A digit is the byte that it escapes as the second one if and only if the first one is a three
and the digit a decimal one. -/
theorem eq_escape_iff (hx : hexValue? h = some x) (hy : hexValue? l = some y) :
    l = x * 16 + y ↔ h = 0x33 ∧ 0x30 ≤ l ∧ l ≤ 0x39 := by
  have hh := toNat_of_hexValue? hx
  have hl := toNat_of_hexValue? hy
  simp only [UInt8.le_iff_toNat_le, ← UInt8.toNat_inj, UInt8.toNat_add, UInt8.toNat_mul,
    UInt8.toNat_ofNat]
  omega

theorem hexValue?_decimal (hd : 0x30 ≤ b ∧ b ≤ 0x39) : hexValue? b = some (b - 0x30) := by
  simp only [hexValue?, hd.1, hd.2, decide_true, Bool.and_true, if_true]

/-! ## One step of each reader -/

theorem decodeBytes_plain (hb : b ≠ 0x25) : decodeBytes (b :: rest) = b :: decodeBytes rest := by
  rw [decodeBytes]
  · exact fun _ _ _ heq => absurd heq hb
  · exact hb

theorem keepBytes_plain (hb : b ≠ 0x25) : keepBytes (b :: rest) = b :: keepBytes rest := by
  rw [keepBytes]
  exact fun _ _ _ heq => absurd heq hb

theorem decodeBytes_escaped (hx : hexValue? h = some x) (hy : hexValue? l = some y) :
    decodeBytes (0x25 :: h :: l :: rest) = (x * 16 + y) :: decodeBytes rest := by
  simp only [decodeBytes, hx, hy]

theorem keepBytes_escaped (hx : hexValue? h = some x) (hy : hexValue? l = some y) :
    keepBytes (0x25 :: h :: l :: rest) = (x * 16 + y) :: keepBytes rest := by
  simp only [keepBytes, hx, hy]

theorem decodeBytes_raw (hraw : hexValue? h = none ∨ hexValue? l = none) :
    decodeBytes (0x25 :: h :: l :: rest) = 0x25 :: decodeBytes rest := by
  rw [decodeBytes]
  split
  next hx hy => rcases hraw with hraw | hraw <;> simp only [hraw, reduceCtorEq] at hx hy
  next => rfl

theorem keepBytes_raw (hraw : hexValue? h = none ∨ hexValue? l = none) :
    keepBytes (0x25 :: h :: l :: rest) = 0x25 :: keepBytes (h :: l :: rest) := by
  rw [keepBytes]
  split
  next hx hy => rcases hraw with hraw | hraw <;> simp only [hraw, reduceCtorEq] at hx hy
  next => rfl

/-- The front of a text. -/
inductive Front : List UInt8 → Prop where
  | nil : Front []
  | plain {b : UInt8} {rest : List UInt8} (hb : b ≠ 0x25) : Front (b :: rest)
  | escape {h l x y : UInt8} {rest : List UInt8} (hx : hexValue? h = some x)
      (hy : hexValue? l = some y) : Front (0x25 :: h :: l :: rest)
  | raw {h l : UInt8} {rest : List UInt8} (hraw : hexValue? h = none ∨ hexValue? l = none) :
      Front (0x25 :: h :: l :: rest)
  | last : Front [0x25]
  | lastButOne (h : UInt8) : Front [0x25, h]

theorem front (bs : List UInt8) : Front bs := by
  match bs with
  | [] => exact .nil
  | b :: rest =>
    by_cases hb : b = 0x25
    · subst hb
      match rest with
      | [] => exact .last
      | [h] => exact .lastButOne h
      | h :: l :: rest =>
        cases hx : hexValue? h with
        | none => exact .raw (.inl hx)
        | some x =>
          cases hy : hexValue? l with
          | none => exact .raw (.inr hy)
          | some y => exact .escape hx hy
    · exact .plain hb

/-- A byte is kept, unless it begins an escape. -/
theorem keepBytes_cons (b : UInt8) (rest : List UInt8) :
    keepBytes (b :: rest) = b :: keepBytes rest ∨
      ∃ h l rest' x y, b = 0x25 ∧ rest = h :: l :: rest' ∧ hexValue? h = some x ∧
        hexValue? l = some y ∧ keepBytes (b :: rest) = (x * 16 + y) :: keepBytes rest' := by
  cases front (b :: rest) with
  | plain hb => exact .inl (keepBytes_plain hb)
  | escape hx hy => exact .inr ⟨_, _, _, _, _, rfl, rfl, hx, hy, keepBytes_escaped hx hy⟩
  | raw hraw => exact .inl (keepBytes_raw hraw)
  | last => exact .inl (by rw [keepBytes]; rintro _ _ _ _ ⟨⟩)
  | lastButOne h => exact .inl (by rw [keepBytes]; rintro _ _ _ _ ⟨⟩)

theorem keepBytes_single (b : UInt8) : keepBytes [b] = [b] := by
  rcases keepBytes_cons b [] with heq | ⟨_, _, _, _, _, _, hnil, _⟩
  · rw [heq, keepBytes]
  · cases hnil

/-! ## The readers compared

Where a percent sign begins no escape, one reader goes on after the two bytes `h` and `l`, and the
other one before them. They come together again at once, unless one of the two bytes begins an
escape for the second reader; then they do where that escape ends. -/

/-- What the careful reader makes of the two bytes that the other one drops. -/
inductive Missed (h l : UInt8) : List UInt8 → Prop where
  | kept {rest : List UInt8} (heq : keepBytes (h :: l :: rest) = h :: l :: keepBytes rest) :
      Missed h l rest
  | first {r x y : UInt8} {rest : List UInt8} (hh : h = 0x25) (hx : hexValue? l = some x)
      (hy : hexValue? r = some y)
      (heq : keepBytes (h :: l :: r :: rest) = (x * 16 + y) :: keepBytes rest) :
      Missed h l (r :: rest)
  | second {r r' x y : UInt8} {rest : List UInt8} (hl : l = 0x25) (hx : hexValue? r = some x)
      (hy : hexValue? r' = some y)
      (heq : keepBytes (h :: l :: r :: r' :: rest) = h :: (x * 16 + y) :: keepBytes rest) :
      Missed h l (r :: r' :: rest)

theorem missed (h l : UInt8) (rest : List UInt8) : Missed h l rest := by
  rcases keepBytes_cons h (l :: rest) with heq | ⟨_, r, rest', x, y, hh, hrest, hx, hy, heq⟩
  · rcases keepBytes_cons l rest with heq' | ⟨r, r', rest', x, y, hl, rfl, hx, hy, heq'⟩
    · exact .kept (by rw [heq, heq'])
    · exact .second hl hx hy (by rw [heq, heq'])
  · cases hrest
    exact .first hh hx hy heq

/-- **No bytes are made up.** The reader of this program never gives more bytes than the careful
one. -/
theorem length_decodeBytes_le (bs : List UInt8) :
    (decodeBytes bs).length ≤ (keepBytes bs).length := by
  induction hn : bs.length using Nat.strong_induction_on generalizing bs with
  | h n ih =>
    subst hn
    cases front bs with
    | nil => exact Nat.le_refl _
    | plain hb =>
      rw [decodeBytes_plain hb, keepBytes_plain hb]
      exact Nat.succ_le_succ (ih _ (Nat.lt_succ_self _) _ rfl)
    | @escape h l x y rest hx hy =>
      rw [decodeBytes_escaped hx hy, keepBytes_escaped hx hy]
      exact Nat.succ_le_succ (ih _ (by simp only [List.length_cons]; omega) _ rfl)
    | last => exact Nat.le_refl _
    | lastButOne h => exact Nat.succ_le_succ (Nat.zero_le _)
    | @raw h l rest hraw =>
      rw [decodeBytes_raw hraw, keepBytes_raw hraw]
      refine Nat.succ_le_succ ?_
      cases missed h l rest with
      | kept heq =>
        have hle := ih _ (by simp only [List.length_cons]; omega) rest rfl
        rw [heq, List.length_cons, List.length_cons]
        omega
      | @first r x y rest hh hx hy heq =>
        rw [decodeBytes_plain (ne_of_hexValue? hy), heq]
        exact Nat.succ_le_succ (ih _ (by simp only [List.length_cons]; omega) _ rfl)
      | @second r r' x y rest hl hx hy heq =>
        rw [decodeBytes_plain (ne_of_hexValue? hx), decodeBytes_plain (ne_of_hexValue? hy), heq]
        exact Nat.succ_le_succ (Nat.succ_le_succ (ih _ (by simp only [List.length_cons]; omega) _ rfl))

theorem decodeBytes_of_faithful (h : Faithful bs) : decodeBytes bs = keepBytes bs := by
  induction h with
  | nil => rfl
  | plain hb _ ih => rw [decodeBytes_plain hb, keepBytes_plain hb, ih]
  | escape hx hy _ ih => rw [decodeBytes_escaped hx hy, keepBytes_escaped hx hy, ih]
  | last => rfl
  | @overlap d rest hd _ ih =>
    have hx : hexValue? 0x33 = some 3 := rfl
    have hy := hexValue?_decimal hd
    have hval := (eq_escape_iff hx hy).mpr ⟨rfl, hd⟩
    rw [decodeBytes_raw (.inl hexValue?_percent), keepBytes_raw (.inl hexValue?_percent),
      decodeBytes_plain (ne_of_hexValue? hy), keepBytes_escaped hx hy, ← hval, ih]
  | @repeated d rest hd _ ih =>
    have hx : hexValue? 0x33 = some 3 := rfl
    have hy := hexValue?_decimal hd
    have hval := (eq_escape_iff hx hy).mpr ⟨rfl, hd⟩
    rw [decodeBytes_raw (.inr hexValue?_percent), keepBytes_raw (.inr hexValue?_percent),
      decodeBytes_plain (ne_of_hexValue? hx), decodeBytes_plain (ne_of_hexValue? hy),
      keepBytes_plain (ne_of_hexValue? hx), keepBytes_escaped hx hy, ← hval, ih]

theorem faithful_of_decodeBytes (heq : decodeBytes bs = keepBytes bs) : Faithful bs := by
  induction hn : bs.length using Nat.strong_induction_on generalizing bs with
  | h n ih =>
    subst hn
    cases front bs with
    | nil => exact .nil
    | plain hb =>
      rw [decodeBytes_plain hb, keepBytes_plain hb] at heq
      exact .plain hb (ih _ (Nat.lt_succ_self _) (List.tail_eq_of_cons_eq heq) rfl)
    | @escape h l x y rest hx hy =>
      rw [decodeBytes_escaped hx hy, keepBytes_escaped hx hy] at heq
      exact .escape hx hy
        (ih _ (by simp only [List.length_cons]; omega) (List.tail_eq_of_cons_eq heq) rfl)
    | last => exact .last
    | lastButOne h =>
      have hlen := congrArg List.length heq
      rcases keepBytes_cons 0x25 [h] with hkeep | ⟨_, _, _, _, _, _, hrest, _⟩
      · rw [hkeep, keepBytes_single] at hlen
        simp only [decodeBytes, List.length_cons, List.length_nil] at hlen
        omega
      · cases hrest
    | @raw h l rest hraw =>
      rw [decodeBytes_raw hraw, keepBytes_raw hraw] at heq
      have htail := List.tail_eq_of_cons_eq heq
      cases missed h l rest with
      | kept hkeep =>
        have hle := length_decodeBytes_le rest
        rw [htail, hkeep, List.length_cons, List.length_cons] at hle
        omega
      | @first r x y rest hh hx hy hkeep =>
        rw [decodeBytes_plain (ne_of_hexValue? hy), hkeep, List.cons.injEq] at htail
        obtain ⟨rfl, hd⟩ := (eq_escape_iff hx hy).mp htail.1
        subst hh
        exact .overlap hd (ih _ (by simp only [List.length_cons]; omega) htail.2 rfl)
      | @second r r' x y rest hl hx hy hkeep =>
        rw [decodeBytes_plain (ne_of_hexValue? hx), decodeBytes_plain (ne_of_hexValue? hy), hkeep,
          List.cons.injEq, List.cons.injEq] at htail
        obtain ⟨rfl, hd⟩ := (eq_escape_iff hx hy).mp htail.2.1
        obtain rfl := htail.1
        subst hl
        exact .repeated hd (ih _ (by simp only [List.length_cons]; omega) htail.2.2 rfl)

/-- **Where nothing is lost.** The reader of this program gives the bytes that the careful one gives
if and only if the text is faithful. -/
theorem decodeBytes_eq_iff : decodeBytes bs = keepBytes bs ↔ Faithful bs :=
  ⟨faithful_of_decodeBytes, decodeBytes_of_faithful⟩

/-! ## Addresses -/

/-- Bytes that are read without a replacement character are the bytes of a text. -/
theorem fault?_of_not_mem (start : Nat) (bs : List UInt8) (h : '\uFFFD' ∉ Utf8.lossy bs) :
    Utf8.fault? start bs = none := by
  induction bs using Utf8.lossy.induct generalizing start with
  | case1 bs hnext =>
    rw [Utf8.fault?]
    split <;> rename_i h' <;> rw [hnext] at h' <;> cases h'
  | case2 bs c rest hnext _ ih =>
    rw [Utf8.lossy] at h
    split at h <;> rename_i h' <;> rw [hnext] at h' <;> cases h'
    rw [Utf8.fault?]
    split <;> rename_i h' <;> rw [hnext] at h' <;> cases h'
    exact ih _ fun hmem => h (List.mem_cons_of_mem _ hmem)
  | case3 bs n rest hnext =>
    rw [Utf8.lossy] at h
    split at h <;> rename_i h' <;> rw [hnext] at h' <;> cases h'
    exact absurd List.mem_cons_self h
  | case4 bs hnext =>
    rw [Utf8.lossy] at h
    split at h <;> rename_i h' <;> rw [hnext] at h' <;> cases h'
    exact absurd (List.mem_singleton_self _) h

/-- Byte strings that are read as one text, without a replacement character, are the same. -/
theorem lossy_inj {as bs : List UInt8} (h : '\uFFFD' ∉ Utf8.lossy bs)
    (heq : Utf8.lossy as = Utf8.lossy bs) : as = bs := by
  rw [← Utf8.encode_lossy 0 as (fault?_of_not_mem 0 as (heq ▸ h)), heq,
    Utf8.encode_lossy 0 bs (fault?_of_not_mem 0 bs h)]

/-- The text that the careful reader gives. -/
def keepText (s : String) : String := String.ofList (Utf8.lossy (keepBytes (Utf8.encode s.toList)))

/-- **Addresses with raw percent signs.** An address is read as the text that keeps every byte that
is in no escape if the address is faithful, and, where that text has no replacement character, only
then. -/
theorem toPath_of_raw (s : String) :
    (Faithful (Utf8.encode s.toList) → toPath (scheme ++ s) = keepText s) ∧
      ('\uFFFD' ∉ (keepText s).toList → toPath (scheme ++ s) = keepText s →
        Faithful (Utf8.encode s.toList)) := by
  refine ⟨fun h => ?_, fun hmem heq => ?_⟩
  · rw [toPath_scheme, decode, decodeBytes_of_faithful h, keepText]
  · rw [keepText, String.toList_ofList] at hmem
    rw [toPath_scheme, decode, keepText, String.ofList_inj] at heq
    exact decodeBytes_eq_iff.mp (lossy_inj hmem heq)

/-- A percent sign at the end is kept; after another one, two characters of the path are lost. -/
theorem toPath_of_raw_samples :
    toPath (scheme ++ "/100%") = keepText "/100%" ∧ keepText "/100%" = "/100%" ∧
      keepText "/a%zzb" = "/a%zzb" ∧ toPath (scheme ++ "/a%zzb") = "/a%b" := by
  have hlast : Faithful (Utf8.encode "/100%".toList) :=
    .plain (by decide) (.plain (by decide) (.plain (by decide) (.plain (by decide) .last)))
  refine ⟨(toPath_of_raw "/100%").1 hlast, ?_, ?_, ?_⟩
  · exact congrArg String.ofList (Utf8.lossy_encode "/100%".toList)
  · exact congrArg String.ofList (Utf8.lossy_encode "/a%zzb".toList)
  · rw [toPath_scheme]
    exact congrArg String.ofList (Utf8.lossy_encode "/a%b".toList)

end DiagnosticBroker.Uri
