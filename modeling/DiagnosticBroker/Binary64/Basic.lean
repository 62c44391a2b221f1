/-!
# Double-precision numbers

A finite number is `± mantissa · 2 ^ exponent` in its one canonical form: the mantissa has 53 bits,
or the exponent is the least one. Every operation computes the exact rational result and rounds it
once to the nearest double, a tie to the even mantissa (`Binary64.ofRatio`).

Results:
* `roundDiv_le`, `le_roundDiv`: rounding a quotient moves it by less than one.
-/

namespace DiagnosticBroker

/-- A double-precision number. -/
inductive Binary64 where
  /-- No number. -/
  | nan
  /-- An infinity. -/
  | infinite (negative : Bool)
  /-- The number `± mantissa · 2 ^ exponent`. -/
  | finite (negative : Bool) (mantissa : Nat) (exponent : Int)
deriving DecidableEq, Repr

namespace Binary64

/-- The exponent of the least numbers. -/
def minExponent : Int := -1074

/-- The exponent of the greatest numbers. -/
def maxExponent : Int := 971

/-- The least mantissa of a number whose exponent is not the least one: it has 53 bits. -/
def leastMantissa : Nat := 4503599627370496

/-- Zero with a sign. -/
def zero (negative : Bool) : Binary64 := .finite negative 0 minExponent

instance : Inhabited Binary64 := ⟨zero false⟩

/-- The quotient `num / den` rounded to the nearest natural number, a tie to the even one. -/
def roundDiv (num den : Nat) : Nat :=
  let q := num / den
  let r := num % den
  if 2 * r < den then q
  else if den < 2 * r then q + 1
  else q + q % 2

theorem le_roundDiv (num den : Nat) : num / den ≤ roundDiv num den := by
  simp only [roundDiv]
  split
  · exact Nat.le_refl _
  · split <;> omega

theorem roundDiv_le (num den : Nat) : roundDiv num den ≤ num / den + 1 := by
  simp only [roundDiv]
  split
  · omega
  · split
    · exact Nat.le_refl _
    · omega

/-- Numerator and denominator of `num / den / 2 ^ e`. -/
def scaleDown (num den : Nat) (e : Int) : Nat × Nat :=
  if 0 ≤ e then (num, den * Nat.pow 2 e.toNat) else (num * Nat.pow 2 (-e).toNat, den)

/-- The double nearest to `± num / den`, for a positive `den`. -/
def ofRatio (negative : Bool) (num den : Nat) : Binary64 :=
  if num = 0 then zero negative
  else
    -- The quotient lies between 2 ^ (l - 1) and 2 ^ (l + 1).
    let l : Int := (num.log2 : Int) - den.log2
    let e₀ := max (l - 52) minExponent
    let s₀ := scaleDown num den e₀
    let e := if s₀.1 / s₀.2 < leastMantissa && minExponent < e₀ then e₀ - 1 else e₀
    let s := scaleDown num den e
    let m := roundDiv s.1 s.2
    let (m, e) := if m = 2 * leastMantissa then (leastMantissa, e + 1) else (m, e)
    if maxExponent < e then .infinite negative else .finite negative m e

/-- The double nearest to `± n · 2 ^ e`. -/
def ofScaled (negative : Bool) (n : Nat) (e : Int) : Binary64 :=
  if 0 ≤ e then ofRatio negative (n * Nat.pow 2 e.toNat) 1
  else ofRatio negative n (Nat.pow 2 (-e).toNat)

/-- The double nearest to a natural number. -/
def ofNat (n : Nat) : Binary64 := ofRatio false n 1

/-- The double nearest to `10 ^ k`. -/
def pow10 (k : Nat) : Binary64 := ofNat (Nat.pow 10 k)

def neg : Binary64 → Binary64
  | nan => nan
  | infinite s => infinite !s
  | finite s m e => finite (!s) m e

/-- Whether the number is zero, of either sign. -/
def isZero : Binary64 → Bool
  | finite _ m _ => m = 0
  | _ => false

def isInfinite : Binary64 → Bool
  | infinite _ => true
  | _ => false

def isFinite : Binary64 → Bool
  | finite .. => true
  | _ => false

/-- The product. -/
def mul : Binary64 → Binary64 → Binary64
  | nan, _ => nan
  | _, nan => nan
  | infinite s, infinite t => infinite (s != t)
  | infinite s, finite t m _ => if m = 0 then nan else infinite (s != t)
  | finite s m _, infinite t => if m = 0 then nan else infinite (s != t)
  | finite s m e, finite t n f => ofScaled (s != t) (m * n) (e + f)

/-- The quotient of two finite numbers, the second one not zero. -/
def divFinite : Binary64 → Binary64 → Binary64
  | finite s m e, finite t n f =>
    if n = 0 then nan
    else if 0 ≤ e - f then ofRatio (s != t) (m * Nat.pow 2 (e - f).toNat) n
    else ofRatio (s != t) m (n * Nat.pow 2 (f - e).toNat)
  | _, _ => nan

/-- The sum of two finite numbers that are not negative. -/
def addFinite : Binary64 → Binary64 → Binary64
  | finite _ m e, finite _ n f =>
    let g := min e f
    ofScaled false (m * Nat.pow 2 (e - g).toNat + n * Nat.pow 2 (f - g).toNat) g
  | _, _ => nan

/-- The power `x ^ n` by repeated squaring, starting from `acc`. -/
def powFrom (acc x : Binary64) (n : Nat) : Binary64 :=
  let acc := if n % 2 = 1 then acc.mul x else acc
  if n < 2 then acc else powFrom acc (x.mul x) (n / 2)
termination_by n
decreasing_by omega

/-- The power `x ^ n` by repeated squaring, each product rounded. -/
def pow (x : Binary64) (n : Nat) : Binary64 := powFrom (ofNat 1) x n

/-- The reciprocal. -/
def inv : Binary64 → Binary64
  | nan => nan
  | infinite s => zero s
  | finite s m e => if m = 0 then infinite s else (ofNat 1).divFinite (finite s m e)

/-- The power `x ^ n`, for a negative `n` the reciprocal of `x ^ -n`. -/
def powInt (x : Binary64) (n : Int) : Binary64 :=
  if n < 0 then (x.pow n.natAbs).inv else x.pow n.natAbs

/-- The number without its fraction, held between `0` and `bound`; `nan` counts as zero. -/
def toNatClamped (bound : Nat) : Binary64 → Nat
  | nan => 0
  | infinite negative => if negative then 0 else bound
  | finite negative m e =>
    if negative then 0
    else min bound (if 0 ≤ e then m * Nat.pow 2 e.toNat else m / Nat.pow 2 (-e).toNat)

/-- The number times `unit`, rounded to the nearest natural number, a tie to the even one; `none`
if the number is negative, infinite or no number. -/
def roundTimes? (unit : Nat) : Binary64 → Option Nat
  | finite negative m e =>
    if negative && m ≠ 0 then none
    else if 0 ≤ e then some (m * Nat.pow 2 e.toNat * unit)
    else some (roundDiv (m * unit) (Nat.pow 2 (-e).toNat))
  | _ => none

end Binary64

end DiagnosticBroker
