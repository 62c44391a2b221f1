import DiagnosticBroker.Binary64.Basic
import DiagnosticBroker.Word
import Mathlib.Tactic.Linarith
import Mathlib.Tactic.Ring

/-!
# Doubles of natural numbers

A natural number of at most 53 bits is a double. A longer one is rounded to 53 bits
(`Binary64.nearest`). Multiplying by a power of two only changes the exponent, so it is exact.

Results:
* `ofRatio_eq`, `ofScaled_eq`: a number in its canonical form is not rounded.
* `ofNat_eq`: the double of a natural number.
* `addFinite_zero`: adding nothing changes nothing.
* `roundTimes?_eq`: a whole multiple of a double is computed exactly.
-/

namespace DiagnosticBroker.Binary64

variable {m n a b k v unit : Nat} {e : Int}

/-- The mantissa has 53 bits, the exponent is within its bounds, and so is the next one. -/
structure IsNormal (m : Nat) (e : Int) : Prop where
  least : leastMantissa ≤ m
  most : m < 2 * leastMantissa
  minExponent : minExponent ≤ e
  maxExponent : e < maxExponent

theorem roundDiv_mul (m : Nat) {d : Nat} (hd : 0 < d) : roundDiv (m * d) d = m := by
  simp only [roundDiv, Nat.mul_mod_left, Nat.mul_div_cancel _ hd]
  rw [if_pos (by omega)]

/-! ## Numbers in canonical form -/

theorem IsNormal.log2 (h : IsNormal m e) (a : Nat) : (m * 2 ^ a).log2 = 52 + a := by
  have hpos : 0 < 2 ^ a := Nat.two_pow_pos a
  have hleast : 2 ^ 52 ≤ m := h.least
  have hmost : m < 2 ^ 53 := h.most
  have hne : m * 2 ^ a ≠ 0 := by
    have := Nat.mul_pos (Nat.lt_of_lt_of_le (by decide) hleast) hpos
    omega
  rw [Nat.log2_eq_iff hne]
  constructor
  · rw [Nat.pow_add]
    exact Nat.mul_le_mul_right _ hleast
  · rw [show 52 + a + 1 = 53 + a by omega, Nat.pow_add]
    exact Nat.mul_lt_mul_of_pos_right hmost hpos

/-- Dividing by the power of two of the exponent leaves the mantissa. -/
theorem scaleDown_eq (m : Nat) (h : (a : Int) - b = e) :
    ∃ d, 0 < d ∧ scaleDown (m * 2 ^ a) (2 ^ b) e = (m * d, d) := by
  by_cases he : 0 ≤ e
  · refine ⟨2 ^ a, Nat.two_pow_pos a, ?_⟩
    rw [scaleDown, if_pos he, Nat.pow_eq, ← Nat.pow_add, show b + e.toNat = a by omega]
  · refine ⟨2 ^ b, Nat.two_pow_pos b, ?_⟩
    rw [scaleDown, if_neg he, Nat.pow_eq, Nat.mul_assoc, ← Nat.pow_add,
      show a + (-e).toNat = b by omega]

/-- A quotient is rounded at the exponent that is tried first if it has all bits there. -/
theorem ofRatio_of_least {num den x y : Nat} (hnum : num ≠ 0)
    (he : max ((num.log2 : Int) - den.log2 - 52) Binary64.minExponent = e)
    (hs : scaleDown num den e = (x, y)) (hleast : leastMantissa ≤ x / y)
    (hmax : e < Binary64.maxExponent) :
    ofRatio false num den =
      if roundDiv x y = 2 * leastMantissa then .finite false leastMantissa (e + 1)
      else .finite false (roundDiv x y) e := by
  have hkeep : (decide (x / y < leastMantissa) && decide (Binary64.minExponent < e)) = false := by
    simp [hleast]
  simp only [ofRatio, if_neg hnum, he, hs, hkeep, Bool.false_eq_true, if_false]
  split_ifs <;> first | rfl | (simp only at *; omega)

/-- A quotient that is a number in canonical form is not rounded. -/
theorem ofRatio_eq (hn : IsNormal m e) (h : (a : Int) - b = e) :
    ofRatio false (m * 2 ^ a) (2 ^ b) = .finite false m e := by
  obtain ⟨d, hd, hscale⟩ := scaleDown_eq m h
  have hlog := hn.log2 a
  have hne : m * 2 ^ a ≠ 0 := by
    intro h0
    rw [h0] at hlog
    simp at hlog
    omega
  have hexp : max (((m * 2 ^ a).log2 : Int) - (2 ^ b).log2 - 52) Binary64.minExponent = e := by
    rw [hlog, Nat.log2_two_pow, max_eq_left] <;> have := hn.minExponent <;> push_cast <;> omega
  rw [ofRatio_of_least hne hexp hscale (by rw [Nat.mul_div_cancel _ hd]; exact hn.least)
    hn.maxExponent, roundDiv_mul m hd, if_neg (Nat.ne_of_lt hn.most)]

/-- A product with a power of two that is a number in canonical form is not rounded. -/
theorem ofScaled_eq (hn : IsNormal m (e + k)) :
    ofScaled false (m * 2 ^ k) e = .finite false m (e + k) := by
  by_cases he : 0 ≤ e
  · rw [ofScaled, if_pos he, Nat.pow_eq, Nat.mul_assoc, ← Nat.pow_add]
    exact ofRatio_eq (b := 0) hn (by push_cast; omega)
  · rw [ofScaled, if_neg he, Nat.pow_eq]
    exact ofRatio_eq hn (by omega)

theorem addFinite_zero (hn : IsNormal m e) :
    (finite false m e).addFinite (zero false) = .finite false m e := by
  have hmin := hn.minExponent
  have hk : Binary64.minExponent + (e - Binary64.minExponent).toNat = e := by omega
  simp only [addFinite, zero, Int.min_eq_right hmin, Nat.pow_eq, Nat.zero_mul, Nat.add_zero]
  rw [ofScaled_eq (by rwa [hk]), hk]

/-! ## Natural numbers -/

/-- The value of the last of 53 bits, if there are more. -/
def lastPlace (n : Nat) : Nat := 2 ^ (n.log2 - 52)

/-- The number with 53 bits that is nearest to a natural number, a tie to the even one. -/
def nearest (n : Nat) : Nat := roundDiv n (lastPlace n) * lastPlace n

theorem nearest_eq (h : n < 2 ^ 53) : nearest n = n := by
  have hlog : n.log2 - 52 = 0 := by
    rcases Nat.eq_zero_or_pos n with rfl | hpos
    · decide
    · have := (Nat.log2_lt (by omega)).mpr h
      omega
  rw [nearest, lastPlace, hlog, Nat.pow_zero, Nat.mul_one]
  simpa using roundDiv_mul n Nat.one_pos

/-- A natural number in units of the last of its 53 bits. -/
theorem scaleDown_one (hpos : 0 < n) {e : Int} (he : e = n.log2 - 52) :
    ∃ x y, scaleDown n 1 e = (x, y) ∧ leastMantissa ≤ x / y ∧ x / y < 2 * leastMantissa ∧
      roundDiv x y * 2 ^ e.toNat = nearest n * 2 ^ (-e).toNat := by
  have hle : 2 ^ n.log2 ≤ n := Nat.log2_self_le (by omega)
  have hlt : n < 2 ^ (n.log2 + 1) := Nat.lt_log2_self
  -- With more than 53 bits the last place is a power of two; with fewer nothing is rounded.
  by_cases hlong : 0 ≤ e
  · have hplace : lastPlace n = 2 ^ e.toNat := by
      rw [lastPlace, show n.log2 - 52 = e.toNat by omega]
    have hbits : 2 ^ n.log2 = leastMantissa * 2 ^ e.toNat := by
      rw [show n.log2 = 52 + e.toNat by omega, Nat.pow_add]
      rfl
    refine ⟨n, 2 ^ e.toNat, ?_, ?_, ?_, ?_⟩
    · rw [scaleDown, if_pos hlong, Nat.pow_eq, Nat.one_mul]
    · rw [Nat.le_div_iff_mul_le (Nat.two_pow_pos _), ← hbits]
      exact hle
    · rw [Nat.div_lt_iff_lt_mul (Nat.two_pow_pos _)]
      rw [Nat.pow_succ, hbits] at hlt
      linarith
    · rw [nearest, hplace, show (-e).toNat = 0 by omega, Nat.pow_zero, Nat.mul_one]
  · have hshort : n < 2 ^ 53 :=
      Nat.lt_of_lt_of_le hlt (Nat.pow_le_pow_right (by decide) (by omega))
    have hbits : 2 ^ n.log2 * 2 ^ (-e).toNat = leastMantissa := by
      rw [← Nat.pow_add, show n.log2 + (-e).toNat = 52 by omega]
      rfl
    refine ⟨n * 2 ^ (-e).toNat, 1, ?_, ?_, ?_, ?_⟩
    · rw [scaleDown, if_neg hlong, Nat.pow_eq]
    · rw [Nat.div_one, ← hbits]
      exact Nat.mul_le_mul_right _ hle
    · rw [Nat.div_one, ← hbits]
      rw [Nat.pow_succ] at hlt
      nlinarith [Nat.two_pow_pos (-e).toNat]
    · have hround : roundDiv (n * 2 ^ (-e).toNat) 1 = n * 2 ^ (-e).toNat := by
        simpa using roundDiv_mul (n * 2 ^ (-e).toNat) Nat.one_pos
      rw [hround, nearest_eq hshort, show e.toNat = 0 by omega, Nat.pow_zero, Nat.mul_one]

/-- The mantissa and exponent of the double of a natural number: together they are the nearest
number with 53 bits. -/
theorem ofNat_eq (hpos : 0 < n) (hn : n ≤ Word.maxU64) :
    ∃ m e, ofNat n = .finite false m e ∧ leastMantissa ≤ m ∧ m < 2 * leastMantissa ∧ -52 ≤ e ∧
      e ≤ 12 ∧ m * 2 ^ e.toNat = nearest n * 2 ^ (-e).toNat := by
  have hne : n ≠ 0 := by omega
  have hlog : n.log2 < 64 := (Nat.log2_lt hne).mpr (Nat.lt_of_le_of_lt hn (by decide))
  obtain ⟨e, he⟩ : ∃ e : Int, e = n.log2 - 52 := ⟨_, rfl⟩
  obtain ⟨x, y, hscale, hleast, hmost, hvalue⟩ := scaleDown_one hpos he
  have hexp : max ((n.log2 : Int) - Nat.log2 1 - 52) minExponent = e := by
    rw [show Nat.log2 1 = 0 from rfl, Int.natCast_zero, Int.sub_zero, ← he, max_eq_left]
    rw [minExponent]
    omega
  have hround := ofRatio_of_least hne hexp hscale hleast (by simp only [maxExponent]; omega)
  have hge := le_roundDiv x y
  have hle := roundDiv_le x y
  -- Rounding up may carry into one more bit, which the exponent takes up.
  by_cases hcarry : roundDiv x y = 2 * leastMantissa
  · rw [if_pos hcarry] at hround
    refine ⟨leastMantissa, e + 1, hround, Nat.le_refl _, by decide, by omega, by omega, ?_⟩
    rw [hcarry] at hvalue
    by_cases hlong : 0 ≤ e
    · rw [show (-(e + 1)).toNat = (-e).toNat by omega, show (e + 1).toNat = e.toNat + 1 by omega,
        Nat.pow_succ]
      linarith
    · rw [show (-e).toNat = (-(e + 1)).toNat + 1 by omega, Nat.pow_succ] at hvalue
      rw [show (e + 1).toNat = e.toNat by omega]
      linarith
  · rw [if_neg hcarry] at hround
    exact ⟨roundDiv x y, e, hround, by omega, by omega, by omega, by omega, hvalue⟩

/-- Two quotients by powers of two are multiplied; their exponents have any sign. -/
theorem mul_two_pow {x y r : Nat} {f : Int} (hx : m * 2 ^ e.toNat = r * 2 ^ (-e).toNat)
    (hy : x * 2 ^ f.toNat = y * 2 ^ (-f).toNat) :
    m * x * 2 ^ (e + f).toNat = r * y * 2 ^ (-(e + f)).toNat := by
  have hexp : 2 ^ (e + f).toNat * (2 ^ (-e).toNat * 2 ^ (-f).toNat) =
      2 ^ (-(e + f)).toNat * (2 ^ e.toNat * 2 ^ f.toNat) := by
    simp only [← Nat.pow_add]
    congr 1
    omega
  have hpos : 0 < 2 ^ (-e).toNat * 2 ^ (-f).toNat :=
    Nat.mul_pos (Nat.two_pow_pos _) (Nat.two_pow_pos _)
  refine Nat.eq_of_mul_eq_mul_right hpos ?_
  calc m * x * 2 ^ (e + f).toNat * (2 ^ (-e).toNat * 2 ^ (-f).toNat)
      = 2 ^ (-(e + f)).toNat * ((m * 2 ^ e.toNat) * (x * 2 ^ f.toNat)) := by
        rw [Nat.mul_assoc, hexp]
        ring
    _ = r * y * 2 ^ (-(e + f)).toNat * (2 ^ (-e).toNat * 2 ^ (-f).toNat) := by
        rw [hx, hy]
        ring

/-- A multiple of a double that is a natural number is computed exactly. -/
theorem roundTimes?_eq (h : m * unit * 2 ^ e.toNat = v * 2 ^ (-e).toNat) :
    roundTimes? unit (.finite false m e) = some v := by
  by_cases he : 0 ≤ e
  · have hneg : (-e).toNat = 0 := by omega
    rw [hneg, Nat.pow_zero, Nat.mul_one] at h
    simp only [roundTimes?, Bool.false_and, Bool.false_eq_true, if_false, if_pos he, Nat.pow_eq]
    rw [← h]
    ring_nf
  · have hpos : e.toNat = 0 := by omega
    rw [hpos, Nat.pow_zero, Nat.mul_one] at h
    simp only [roundTimes?, Bool.false_and, Bool.false_eq_true, if_false, if_neg he, Nat.pow_eq, h]
    rw [roundDiv_mul v (Nat.two_pow_pos _)]

end DiagnosticBroker.Binary64
