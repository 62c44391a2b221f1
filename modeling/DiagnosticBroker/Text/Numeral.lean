import DiagnosticBroker.Word

/-!
# Decimal numerals

Reading an unsigned numeral with an upper bound: an optional `+`, then at least one digit, and
nothing else. Leading zeros are allowed.
-/

namespace DiagnosticBroker.Numeral

/-- Why a text is no numeral in range. -/
inductive Refusal where
  /-- The text is empty. -/
  | empty
  /-- A character other than a digit occurs, or a sign stands alone. -/
  | invalidDigit
  /-- The value is above the bound. -/
  | tooLarge
deriving DecidableEq, Repr

/-- The wording of a refusal. -/
def Refusal.message : Refusal → String
  | .empty => "cannot parse integer from empty string"
  | .invalidDigit => "invalid digit found in string"
  | .tooLarge => "number too large to fit in target type"

/-- The value of a decimal digit. -/
def digit? (c : Char) : Option Nat :=
  if '0' ≤ c && c ≤ '9' then some (c.toNat - '0'.toNat) else none

/-- Continues a numeral whose value so far is `n`. Digits are checked and added one by one, so of
two faults the one further left is reported. -/
def readDigits (bound n : Nat) : List Char → Except Refusal Nat
  | [] => .ok n
  | c :: cs =>
    match digit? c with
    | none => .error .invalidDigit
    | some d => if 10 * n + d ≤ bound then readDigits bound (10 * n + d) cs else .error .tooLarge

/-- Reads an unsigned numeral of at most `bound`. -/
def read (bound : Nat) : List Char → Except Refusal Nat
  | [] => .error .empty
  | ['+'] => .error .invalidDigit
  | ['-'] => .error .invalidDigit
  | '+' :: cs => readDigits bound 0 cs
  | cs => readDigits bound 0 cs

/-- Reads an unsigned numeral of 64 bits. -/
def readU64? (s : String) : Option Nat := (read Word.maxU64 s.toList).toOption

end DiagnosticBroker.Numeral
