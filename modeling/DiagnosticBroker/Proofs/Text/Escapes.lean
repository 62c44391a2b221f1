import DiagnosticBroker.Proofs.Text.Utf8
import DiagnosticBroker.Uri
import Mathlib.Tactic.IntervalCases

/-!
# Escaped paths

A path can be escaped in many ways: each of its characters stays as it is, or is written as the
escapes of its bytes, with digits of either case; only a percent sign has to be escaped. However a
path is escaped, it is read back, and its address is written again as the one that this program
writes. So addresses are told apart exactly by the paths that they stand for.

Results:
* `Escapes`: the ways to escape a path; `escapes_encode`: the way of this program is one of them.
* `decode_of_escapes`: an escaped path is read back.
* `toPath_of_escapes`, `normalize_of_escapes`: addresses of escaped paths.
* `ofPath_eq_iff`: which paths have one address.
-/

namespace DiagnosticBroker.Uri

/-! ## The specification -/

/-- A hexadecimal digit of either case stands for a number. -/
def IsHexDigit (n : Nat) (d : Char) : Prop :=
  "0123456789abcdef".toList[n]? = some d ∨ "0123456789ABCDEF".toList[n]? = some d

/-- Some characters are the escapes of some bytes. -/
inductive EscapesBytes : List UInt8 → List Char → Prop where
  | nil : EscapesBytes [] []
  | cons {b : UInt8} {bs : List UInt8} {x y : Char} {cs : List Char}
      (hx : IsHexDigit (b.toNat / 16) x) (hy : IsHexDigit (b.toNat % 16) y)
      (h : EscapesBytes bs cs) : EscapesBytes (b :: bs) ('%' :: x :: y :: cs)

/-- A path is escaped as some text. -/
inductive Escapes : List Char → List Char → Prop where
  | nil : Escapes [] []
  | plain {c : Char} {path text : List Char} (hc : c ≠ '%') (h : Escapes path text) :
      Escapes (c :: path) (c :: text)
  | escaped {c : Char} {path text e : List Char} (he : EscapesBytes (String.utf8EncodeChar c) e)
      (h : Escapes path text) : Escapes (c :: path) (e ++ text)

/-! ## Reading escapes -/

theorem hexValue?_of_isHexDigit {n : Nat} {d : Char} (h : IsHexDigit n d) :
    hexValue? (UInt8.ofNat d.toNat) = some (UInt8.ofNat n) ∧ d.toNat < 128 := by
  have hn : n < 16 := by
    by_contra hn
    have hlong : ∀ s : String, s.toList.length = 16 → s.toList[n]? ≠ some d := by
      intro s hs hd
      rw [List.getElem?_eq_none (by omega)] at hd
      cases hd
    exact h.elim (hlong _ rfl) (hlong _ rfl)
  interval_cases n <;> rcases h with h | h <;> cases h <;> decide

theorem decodeBytes_escape {b : UInt8} {x y : Char} (hx : IsHexDigit (b.toNat / 16) x)
    (hy : IsHexDigit (b.toNat % 16) y) (rest : List UInt8) :
    decodeBytes (0x25 :: UInt8.ofNat x.toNat :: UInt8.ofNat y.toNat :: rest) =
      b :: decodeBytes rest := by
  have hb : UInt8.ofNat (b.toNat / 16) * 16 + UInt8.ofNat (b.toNat % 16) = b := by
    have hlt := b.toNat_lt
    refine UInt8.toNat_inj.mp ?_
    rw [UInt8.toNat_add, UInt8.toNat_mul, Utf8.toNat_ofNat (by omega), Utf8.toNat_ofNat (by omega)]
    change (b.toNat / 16 * 16 % 256 + b.toNat % 16) % 256 = b.toNat
    omega
  simp only [decodeBytes, (hexValue?_of_isHexDigit hx).1, (hexValue?_of_isHexDigit hy).1, hb]

/-- The escapes of bytes are read as the bytes. -/
theorem decodeBytes_of_escapesBytes {bs : List UInt8} {cs : List Char} (h : EscapesBytes bs cs)
    (rest : List UInt8) : decodeBytes (Utf8.encode cs ++ rest) = bs ++ decodeBytes rest := by
  induction h with
  | nil => rfl
  | @cons b bs x y cs hx hy _ ih =>
    have hsplit : Utf8.encode ('%' :: x :: y :: cs) =
        0x25 :: UInt8.ofNat x.toNat :: UInt8.ofNat y.toNat :: Utf8.encode cs := by
      simp only [Utf8.encode, List.flatMap_cons, Utf8.encodeChar_of_lt (hexValue?_of_isHexDigit hx).2,
        Utf8.encodeChar_of_lt (hexValue?_of_isHexDigit hy).2]
      rfl
    rw [hsplit, List.cons_append, List.cons_append, List.cons_append, decodeBytes_escape hx hy, ih,
      List.cons_append]

/-- Bytes that are no percent sign are read as they are. -/
theorem decodeBytes_append {bs : List UInt8} (h : ∀ b ∈ bs, b ≠ 0x25) (rest : List UInt8) :
    decodeBytes (bs ++ rest) = bs ++ decodeBytes rest := by
  induction bs with
  | nil => rfl
  | cons b bs ih =>
    have hb : b ≠ 0x25 := h b List.mem_cons_self
    rw [List.cons_append, decodeBytes, ih fun x hx => h x (List.mem_cons_of_mem _ hx),
      List.cons_append]
    · exact fun _ _ _ heq => absurd heq hb
    · exact hb

/-- The bytes of a character other than a percent sign hold none. -/
theorem ne_of_mem_encodeChar {c : Char} (hc : c ≠ '%') : ∀ b ∈ String.utf8EncodeChar c, b ≠ 0x25 := by
  rintro b hb rfl
  exact hc (Char.toNat_inj.mp (Utf8.toNat_of_mem_encodeChar hb (by decide)))

variable {path text : List Char}

theorem decodeBytes_of_escapes (h : Escapes path text) :
    decodeBytes (Utf8.encode text) = Utf8.encode path := by
  induction h with
  | nil => rfl
  | @plain c path text hc _ ih =>
    rw [Utf8.encode, List.flatMap_cons, decodeBytes_append (ne_of_mem_encodeChar hc)]
    exact congrArg _ ih
  | @escaped c path text e he _ ih =>
    rw [Utf8.encode_append, decodeBytes_of_escapesBytes he, ih]
    rfl

/-- **Escaped paths.** However a path is escaped, it is read back. -/
theorem decode_of_escapes (h : Escapes path text) : decode text = path := by
  rw [decode, decodeBytes_of_escapes h, Utf8.lossy_encode]

/-! ## Writing escapes -/

theorem isHexDigit_hexDigit {n : Nat} (hn : n < 16) : IsHexDigit n (hexDigit n) := by
  refine .inr ?_
  interval_cases n <;> rfl

theorem escapesBytes_flatMap (bs : List UInt8) : EscapesBytes bs (bs.flatMap escapeByte) := by
  induction bs with
  | nil => exact .nil
  | cons b bs ih =>
    have hlt := b.toNat_lt
    exact .cons (isHexDigit_hexDigit (by omega)) (isHexDigit_hexDigit (by omega)) ih

/-- What this program writes is a way to escape a path. -/
theorem escapes_encode (path : List Char) : Escapes path (encode path) := by
  induction path with
  | nil => exact .nil
  | cons c path ih =>
    rw [encode, List.flatMap_cons, encodeChar]
    split_ifs with hc
    · refine .plain ?_ ih
      rintro rfl
      exact absurd hc (by decide)
    · exact .escaped (escapesBytes_flatMap _) ih

/-! ## Addresses -/

variable {p q u cwd : String}

theorem startsWith_scheme (u : String) : (scheme ++ u).startsWith scheme = true := by
  rw [String.startsWith_string_iff, String.toList_append]
  exact List.prefix_append ..

theorem toPath_scheme (u : String) : toPath (scheme ++ u) = String.ofList (decode u.toList) := by
  have hdrop : (scheme ++ u).toList.drop scheme.length = u.toList := by
    rw [String.toList_append, ← String.length_toList, List.drop_left]
  rw [toPath, if_pos (startsWith_scheme u), hdrop]

theorem toPath_of_escapes (h : Escapes p.toList u.toList) : toPath (scheme ++ u) = p := by
  rw [toPath_scheme, decode_of_escapes h, String.ofList_toList]

theorem absolute_of_startsWith (h : p.startsWith "/" = true) : absolute cwd p = p := if_pos h

/-- **Addresses of a path.** However a path is escaped in an address, the address is written again
as the one that this program writes. -/
theorem normalize_of_escapes (h : Escapes p.toList u.toList) :
    normalize cwd (scheme ++ u) = ofPath cwd p := by
  rw [normalize, if_pos (startsWith_scheme u), toPath_of_escapes h]

theorem normalize_ofPath (h : p.startsWith "/" = true) : normalize cwd (ofPath cwd p) = ofPath cwd p := by
  have hp : absolute cwd p = p := absolute_of_startsWith h
  refine normalize_of_escapes ?_
  rw [hp, String.toList_ofList]
  exact escapes_encode _

theorem toPath_ofPath (cwd p : String) : toPath (ofPath cwd p) = absolute cwd p :=
  toPath_of_escapes (by rw [String.toList_ofList]; exact escapes_encode _)

/-- **Addresses.** Two paths have one address if and only if they are the same path from the root. -/
theorem ofPath_eq_iff : ofPath cwd p = ofPath cwd q ↔ absolute cwd p = absolute cwd q := by
  constructor
  · intro h
    rw [← toPath_ofPath cwd p, h, toPath_ofPath]
  · intro h
    rw [ofPath, h, ofPath]

end DiagnosticBroker.Uri
