/-!
# Bounds of machine words

The least and greatest values of integers that are kept in 8, 32 or 64 bits, with or without a sign,
and the reading of 32 bits with a sign.
-/

namespace DiagnosticBroker.Word

abbrev maxU8 : Nat := 255

abbrev maxU32 : Nat := 4294967295

abbrev maxU64 : Nat := 18446744073709551615

abbrev minI32 : Int := -2147483648

abbrev maxI32 : Int := 2147483647

abbrev minI64 : Int := -9223372036854775808

abbrev maxI64 : Int := 9223372036854775807

/-- The number whose 32 bits with a sign are the low bits of `n`. -/
def toI32 (n : Nat) : Int := Int.bmod n 4294967296

example : toI32 2147483647 = 2147483647 ∧ toI32 2147483648 = minI32 := by decide

/-- The number after another one in 32 bits with a sign. The least one follows the greatest. -/
def nextI32 (n : Int) : Int := if n = maxI32 then minI32 else n + 1

/-- The number after another one in 32 bits without a sign. Zero follows the greatest. -/
def nextU32 (n : Nat) : Nat := if n = maxU32 then 0 else n + 1

theorem nextI32_of_lt {n : Int} (h : n < maxI32) : nextI32 n = n + 1 := if_neg (Int.ne_of_lt h)

theorem nextU32_of_lt {n : Nat} (h : n < maxU32) : nextU32 n = n + 1 := if_neg (Nat.ne_of_lt h)

theorem lt_maxU32 {n : Nat} (h : n ≤ maxI32) : n < maxU32 := by
  simp only [maxI32, maxU32] at *
  omega

end DiagnosticBroker.Word
