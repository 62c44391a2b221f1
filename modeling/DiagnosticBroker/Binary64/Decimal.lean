import DiagnosticBroker.Binary64.Basic

/-!
# Doubles as decimal numerals

`Binary64.shortest` finds the fewest digits that read back as the number, and of those the nearest;
`Binary64.ofDecimal?` reads a significand of 64 bits and a power of ten. Two layouts of the shortest
digits are in use: positional for all numbers, and positional or with an exponent by size.
-/

namespace DiagnosticBroker.Binary64

/-! ## Shortest digits -/

/-- Digits and the power of ten that they are multiplied by. -/
structure Digits where
  digits : Nat
  power : Int
deriving DecidableEq, Repr

/-- The positive numbers that round to `mantissa · 2 ^ exponent`, in units of a quarter of the last
place: bounds, and whether the bounds themselves belong to them. -/
structure Interval where
  low : Nat
  value : Nat
  high : Nat
  closed : Bool

/-- The numbers that round to a positive double. The lower neighbour of a power of two is half as
far away as the upper one. -/
def interval (mantissa : Nat) (exponent : Int) : Interval where
  low :=
    if mantissa = leastMantissa && minExponent < exponent then 4 * mantissa - 1
    else 4 * mantissa - 2
  value := 4 * mantissa
  high := 4 * mantissa + 2
  closed := mantissa % 2 = 0

/-- Whether `k · 10 ^ p` lies in the interval, where the quarter place is `2 ^ e`. -/
def Interval.contains (i : Interval) (e : Int) (k : Nat) (p : Int) : Bool :=
  -- Both sides of the comparison are brought over a common denominator.
  let scale (x : Nat) : Nat := x * Nat.pow 2 e.toNat * Nat.pow 10 (-p).toNat
  let x := k * Nat.pow 10 p.toNat * Nat.pow 2 (-e).toNat
  if i.closed then scale i.low ≤ x && x ≤ scale i.high else scale i.low < x && x < scale i.high

/-- The two neighbours of the value on the grid of the multiples of `10 ^ p` that lie in the
interval, the nearer one first; a tie goes to the even one. -/
def Interval.onGrid (i : Interval) (e : Int) (p : Int) : Option Nat :=
  let num := i.value * Nat.pow 2 e.toNat * Nat.pow 10 (-p).toNat
  let den := Nat.pow 10 p.toNat * Nat.pow 2 (-e).toNat
  let k := num / den
  let near := roundDiv num den
  let far := if near = k then k + 1 else k
  if near ≠ 0 && i.contains e near p then some near
  else if far ≠ 0 && i.contains e far p then some far
  else none

/-- Leaves out the zeros at the end of the digits. -/
def Digits.trim (d : Digits) : Nat → Digits
  | 0 => d
  | fuel + 1 =>
    if d.digits % 10 = 0 && d.digits ≠ 0 then
      Digits.trim { digits := d.digits / 10, power := d.power + 1 } fuel
    else d

/-- The number of decimal digits of `n`. -/
def decimalLength (n : Nat) : Nat := (Nat.toDigits 10 n).length

/-- The fewest digits that read back as `mantissa · 2 ^ exponent`, and of those the nearest. Grids
are tried from the coarsest, whose unit is the power of ten at the value, to the one on which 17
digits always suffice. -/
def shortest (mantissa : Nat) (exponent : Int) : Digits :=
  let i := interval mantissa exponent
  let e := exponent - 2
  -- The value is below 10 ^ top.
  let top : Int :=
    if 0 ≤ exponent then decimalLength (mantissa * Nat.pow 2 exponent.toNat)
    else
      let scaled := mantissa * Nat.pow 10 330 / Nat.pow 2 (-exponent).toNat
      (decimalLength scaled : Int) - 330
  match (List.range 18).findSome? fun (n : Nat) =>
      (i.onGrid e (top - n)).map fun k => (⟨k, top - n⟩ : Digits) with
  | some d => d.trim 20
  | none => ⟨mantissa, 0⟩

/-! ## Layouts -/

/-- Digits as text. -/
def digitText (n : Nat) : String := String.ofList (Nat.toDigits 10 n)

def zeros (n : Nat) : String := String.ofList (List.replicate n '0')

/-- Positional text of digits; a whole number ends with `.0`. -/
def Digits.positional (d : Digits) : String :=
  let s := digitText d.digits
  if 0 ≤ d.power then s ++ zeros d.power.toNat ++ ".0"
  else
    let places := (-d.power).toNat
    if s.length ≤ places then "0." ++ zeros (places - s.length) ++ s
    else
      let cs := s.toList
      String.ofList (cs.take (cs.length - places)) ++ "." ++
        String.ofList (cs.drop (cs.length - places))

/-- Text with an exponent: one digit, a point and the other digits if there are any, `e`, and the
exponent with its sign. -/
def Digits.scientific (d : Digits) : String :=
  let s := digitText d.digits
  let exponent := d.power + s.length - 1
  let tail := String.ofList (s.toList.drop 1)
  String.ofList (s.toList.take 1) ++ (if tail.isEmpty then "" else "." ++ tail) ++
    (if 0 ≤ exponent then "e+" else "e") ++ toString exponent

/-- Text with the fewest digits: positional from 0.00001 to below 10 ^ 16, else with an exponent.
Infinities and `nan` have no numeral. -/
def shortText : Binary64 → String
  | finite negative m e =>
    let sign := if negative then "-" else ""
    if m = 0 then sign ++ "0.0"
    else
      let d := shortest m e
      let point := d.power + decimalLength d.digits
      sign ++ (if -5 < point && point ≤ 16 then d.positional else d.scientific)
  | _ => "null"

/-! ## Reading -/

/-- The double that a significand of 64 bits and a power of ten are read as: the significand is
rounded, then multiplied or divided by the rounded power of ten. Very small powers are reached in
steps of 308. `none` stands for a number out of range. -/
def ofDecimal? (negative : Bool) (significand : Nat) (power : Int) : Option Binary64 :=
  let x := ofNat significand
  let x? :=
    if 0 ≤ power then
      if power ≤ 308 then
        let y := x.mul (pow10 power.toNat)
        if y.isInfinite then none else some y
      else if x.isZero then some x
      else none
    else some (shrink x (-power).toNat (-power).toNat)
  x?.map fun y => if negative then y.neg else y
where
  /-- Divides by `10 ^ n`, in steps of 308. -/
  shrink (x : Binary64) (n : Nat) : Nat → Binary64
    | 0 => x
    | fuel + 1 =>
      if n ≤ 308 then x.divFinite (pow10 n)
      else if x.isZero then x
      else shrink (x.divFinite (pow10 308)) (n - 308) fuel

end DiagnosticBroker.Binary64
