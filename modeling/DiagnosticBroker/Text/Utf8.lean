/-!
# Reading bytes as UTF-8

One reading step, `Utf8.next`, tells a character from a malformed sequence. Two readers use it:
`Utf8.decode` refuses the first malformed sequence and says where it is and how long, `Utf8.lossy`
puts U+FFFD in its place and goes on.

A malformed sequence is the longest beginning of a character that the bytes hold, so a byte that
could start a character of its own is never swallowed.
-/

namespace DiagnosticBroker.Utf8

/-- What the front of a byte string holds. -/
inductive Step where
  /-- No byte is left. -/
  | done
  /-- A character, and the bytes after it. -/
  | char (c : Char) (rest : List UInt8)
  /-- A malformed sequence of `length` bytes, and the bytes after it. -/
  | malformed (length : Nat) (rest : List UInt8)
  /-- The bytes end inside a character. -/
  | truncated

/-- A byte that may only continue a character. -/
def isTail (b : UInt8) : Bool := 0x80 ≤ b && b ≤ 0xBF

/-- Whether `b` may follow the first byte `a` of a character of three bytes: no overlong form, no
surrogate. -/
def isSecondOfThree (a b : UInt8) : Bool :=
  if a = 0xE0 then 0xA0 ≤ b && b ≤ 0xBF
  else if a = 0xED then 0x80 ≤ b && b ≤ 0x9F
  else isTail b

/-- Whether `b` may follow the first byte `a` of a character of four bytes: no overlong form,
nothing above U+10FFFF. -/
def isSecondOfFour (a b : UInt8) : Bool :=
  if a = 0xF0 then 0x90 ≤ b && b ≤ 0xBF
  else if a = 0xF4 then 0x80 ≤ b && b ≤ 0x8F
  else isTail b

/-- The six low bits that a continuation byte carries. -/
def payload (b : UInt8) : Nat := b.toNat % 64

/-- Reads one character, or the malformed sequence in its place. -/
def next : List UInt8 → Step
  | [] => .done
  | a :: rest =>
    if a < 0x80 then .char (Char.ofNat a.toNat) rest
    else if 0xC2 ≤ a && a ≤ 0xDF then
      match rest with
      | [] => .truncated
      | b :: rest₁ =>
        if isTail b then .char (Char.ofNat (a.toNat % 32 * 64 + payload b)) rest₁
        else .malformed 1 rest
    else if 0xE0 ≤ a && a ≤ 0xEF then
      match rest with
      | [] => .truncated
      | b :: rest₁ =>
        if isSecondOfThree a b then
          match rest₁ with
          | [] => .truncated
          | c :: rest₂ =>
            if isTail c then
              .char (Char.ofNat (a.toNat % 16 * 4096 + payload b * 64 + payload c)) rest₂
            else .malformed 2 rest₁
        else .malformed 1 rest
    else if 0xF0 ≤ a && a ≤ 0xF4 then
      match rest with
      | [] => .truncated
      | b :: rest₁ =>
        if isSecondOfFour a b then
          match rest₁ with
          | [] => .truncated
          | c :: rest₂ =>
            if isTail c then
              match rest₂ with
              | [] => .truncated
              | d :: rest₃ =>
                if isTail d then
                  .char (Char.ofNat
                    (a.toNat % 8 * 262144 + payload b * 4096 + payload c * 64 + payload d)) rest₃
                else .malformed 3 rest₂
            else .malformed 2 rest₁
        else .malformed 1 rest
    else .malformed 1 rest

/-- The rest that a step leaves is shorter than what it started from. -/
theorem length_lt_of_next_eq_char {bytes rest : List UInt8} {c : Char}
    (h : next bytes = .char c rest) : rest.length < bytes.length := by
  unfold next at h
  repeat' split at h
  all_goals first
    | contradiction
    | (simp only [Step.char.injEq] at h; obtain ⟨-, rfl⟩ := h; simp only [List.length_cons]; omega)

theorem length_lt_of_next_eq_malformed {bytes rest : List UInt8} {n : Nat}
    (h : next bytes = .malformed n rest) : rest.length < bytes.length := by
  unfold next at h
  repeat' split at h
  all_goals first
    | contradiction
    | (simp only [Step.malformed.injEq] at h; obtain ⟨-, rfl⟩ := h
       simp only [List.length_cons]; omega)

/-- Why bytes are not UTF-8. -/
inductive Malformed where
  /-- The `length` bytes at `start` begin no character. -/
  | sequence (length start : Nat)
  /-- The bytes end inside the character that begins at `start`. -/
  | truncated (start : Nat)
deriving DecidableEq, Repr

/-- The wording of a refusal. -/
def Malformed.message : Malformed → String
  | .sequence n i => s!"invalid utf-8 sequence of {n} bytes from index {i}"
  | .truncated i => s!"incomplete utf-8 byte sequence from index {i}"

/-- The characters that `bytes` spell, with U+FFFD for each malformed sequence. -/
def lossy (bytes : List UInt8) : List Char :=
  match h : next bytes with
  | .done => []
  | .char c rest =>
    have := length_lt_of_next_eq_char h
    c :: lossy rest
  | .malformed _ rest =>
    have := length_lt_of_next_eq_malformed h
    '\uFFFD' :: lossy rest
  | .truncated => ['\uFFFD']
termination_by bytes.length

/-- The first place where `bytes` spell no character; `start` is the index of the first byte. -/
def fault? (start : Nat) (bytes : List UInt8) : Option Malformed :=
  match h : next bytes with
  | .done => none
  | .char c rest =>
    have := length_lt_of_next_eq_char h
    fault? (start + c.utf8Size) rest
  | .malformed n _ => some (.sequence n start)
  | .truncated => some (.truncated start)
termination_by bytes.length

/-- The characters that `bytes` spell, or the first place where they spell none. -/
def decode (bytes : List UInt8) : Except Malformed (List Char) :=
  match fault? 0 bytes with
  | none => .ok (lossy bytes)
  | some e => .error e

/-- The bytes of a text. -/
def encode (cs : List Char) : List UInt8 := cs.flatMap String.utf8EncodeChar

/-- The text that a byte array spells. Long arrays are the rule here (whole files), so the check
runs on the array, and only a refused one is read again for the place of the fault. -/
def decodeArray (bytes : ByteArray) : Except Malformed String :=
  match String.fromUTF8? bytes with
  | some s => .ok s
  | none =>
    match decode bytes.toList with
    | .ok cs => .ok (String.ofList cs)
    | .error e => .error e

end DiagnosticBroker.Utf8
