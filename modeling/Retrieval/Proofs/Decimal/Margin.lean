/-
# Retrieval.Proofs.Decimal.Margin -- short decimals stay off the midpoints

The reader multiplies a significand by a power of ten that has been rounded to 64 bits.
`Decimal.factor` is that power.  A decimal of few digits that is close to a midpoint of
32-bit floats could thereby come to lie on the other side of it.

It does not (`Decimal.margin`): either the decimal is the midpoint, and then it is read
exactly, or it is off the midpoint by more than the two roundings can move it.  For one
exponent this is a question of how close a fraction with a numerator of 25 bits can come
to the power of ten, and is answered by the best approximations of the power.  They are
found and checked for each exponent in question (`Decimal.separates`).
-/
import Retrieval.Decimal.Reading
import Retrieval.Proofs.Decimal.Fraction
import Retrieval.Proofs.Decimal.Shortest

namespace Retrieval

set_option autoImplicit false

namespace Neighbours

open Fraction

/-! ## One power of ten -/

/-- The fractions keep everything of a short numerator off the exact power, by more than
what lies between it and the rounded one. -/
structure Separates (N : Neighbours) (exact rounded : Fraction) : Prop where
  isolate : N.Isolate (2 ^ 25)
  narrow : N.high.num ≤ 2 * N.high.den
  below : N.low.Before exact
  belowMargin : (N.low.times (2 ^ 53 + 1) (2 ^ 53)).Before rounded
  above : exact.Before N.high
  aboveMargin : rounded.Before (N.high.times (2 ^ 53 - 1) (2 ^ 53))
  middle : N.mid.Same exact ∧ N.mid.Same rounded ∨ 2 ^ 25 ≤ N.mid.num ∨
    (2 ^ 25 ≤ 2 * N.mid.num ∧ N.mid.den % 2 = 1 ∧ 2 ^ 24 < N.mid.den) ∨
    (exact.Before N.mid ∧
      rounded.Before (N.mid.times (2 ^ 29 * N.mid.num - 1) (2 ^ 29 * N.mid.num)))
  positive : 0 < N.low.den ∧ 0 < N.mid.den ∧ 0 < N.high.den ∧ 0 < exact.den ∧ 0 < rounded.den

instance (N : Neighbours) (exact rounded : Fraction) : Decidable (N.Separates exact rounded) :=
  decidable_of_iff (N.Isolate (2 ^ 25) ∧ N.high.num ≤ 2 * N.high.den ∧ N.low.Before exact ∧
      (N.low.times (2 ^ 53 + 1) (2 ^ 53)).Before rounded ∧ exact.Before N.high ∧
      rounded.Before (N.high.times (2 ^ 53 - 1) (2 ^ 53)) ∧
      (N.mid.Same exact ∧ N.mid.Same rounded ∨ 2 ^ 25 ≤ N.mid.num ∨
        (2 ^ 25 ≤ 2 * N.mid.num ∧ N.mid.den % 2 = 1 ∧ 2 ^ 24 < N.mid.den) ∨
        (exact.Before N.mid ∧
          rounded.Before (N.mid.times (2 ^ 29 * N.mid.num - 1) (2 ^ 29 * N.mid.num)))) ∧
      (0 < N.low.den ∧ 0 < N.mid.den ∧ 0 < N.high.den ∧ 0 < exact.den ∧ 0 < rounded.den))
    ⟨fun ⟨a, b, c, d, e, f, g, h⟩ => ⟨a, b, c, d, e, f, g, h⟩,
      fun ⟨a, b, c, d, e, f, g, h⟩ => ⟨a, b, c, d, e, f, g, h⟩⟩

namespace Separates

variable {N : Neighbours} {exact rounded : Fraction} {n s i k : Nat} {r : ℚ}

/-- On which side of the exact power a magnitude is, the rounded power shows as well. -/
structure Shows (exact rounded r : ℚ) (n : Nat) : Prop where
  at_exact : r = exact → r = rounded
  before : r < exact → r * (1 + 1 / (2 ^ 29 * n)) < rounded
  behind : exact < r → rounded < r * (1 - 1 / (2 ^ 29 * n))

/-- The share of a magnitude that a rounding takes at most. -/
theorem share_le (large : 2 ^ 24 ≤ n) : (1 : ℚ) / (2 ^ 29 * n) ≤ 1 / 2 ^ 53 := by
  have : (2 ^ 24 : ℚ) ≤ n := by exact_mod_cast large
  apply one_div_le_one_div_of_le (by positivity)
  linarith

/-- The outer fractions in rational numbers. -/
theorem outer (separates : N.Separates exact rounded) :
    N.low.quotient < exact.quotient ∧ N.low.quotient * (1 + 1 / 2 ^ 53) < rounded.quotient ∧
      exact.quotient < N.high.quotient ∧
        rounded.quotient < N.high.quotient * (1 - 1 / 2 ^ 53) := by
  obtain ⟨lowDen, midDen, highDen, exactDen, roundedDen⟩ := separates.positive
  have belowMargin :=
    (before_iff (Nat.mul_pos lowDen (by decide)) roundedDen).1 separates.belowMargin
  have aboveMargin :=
    (before_iff roundedDen (Nat.mul_pos highDen (by decide))).1 separates.aboveMargin
  rw [times_quotient] at belowMargin aboveMargin
  norm_num only [Nat.cast_pow, Nat.cast_ofNat, Nat.cast_add, Nat.cast_one] at belowMargin
  norm_num only [Nat.cast_pow, Nat.cast_ofNat] at aboveMargin
  exact ⟨(before_iff lowDen exactDen).1 separates.below, by linarith,
    (before_iff exactDen highDen).1 separates.above, by linarith⟩

/-- A magnitude below the outer fraction is not of a binade behind the power. -/
theorem within_of_lt (separates : N.Separates exact rounded) (positive : 0 < s)
    (short : s ≤ 2 ^ 24) (large : 2 ^ 24 ≤ n)
    (less : (n * 2 ^ i / (s * 2 ^ k) : ℚ) < N.high.quotient) : i ≤ k := by
  by_contra behind
  have narrow : N.high.quotient ≤ 2 := by
    have den : (0 : ℚ) < N.high.den := by exact_mod_cast separates.positive.2.2.1
    rw [quotient, div_le_iff₀ den]
    exact_mod_cast separates.narrow
  have twice : 2 * (s * 2 ^ k) ≤ n * 2 ^ i := by
    calc 2 * (s * 2 ^ k) = s * 2 ^ (k + 1) := by ring
      _ ≤ n * 2 ^ i := Nat.mul_le_mul (by omega) (Nat.pow_le_pow_right (by decide) (by omega))
  have atLeast : (2 : ℚ) ≤ n * 2 ^ i / (s * 2 ^ k) := by
    have den : (0 : ℚ) < s * 2 ^ k := by positivity
    rw [le_div_iff₀ den]
    exact_mod_cast twice
  linarith

/-- Between the outer fractions a magnitude is the middle one. -/
theorem mid_of_between (separates : N.Separates exact rounded) (positive : 0 < s)
    (short : s ≤ 2 ^ 24) (large : 2 ^ 24 ≤ n) (small : n < 2 ^ 25)
    (magnitude : r = n * 2 ^ i / (s * 2 ^ k)) (left : N.low.quotient < r)
    (right : r < N.high.quotient) :
    r = N.mid.quotient ∧ ∃ t j, 0 < t ∧ n = t * N.mid.num ∧ s * 2 ^ j = t * N.mid.den := by
  obtain ⟨lowDen, -, highDen, -⟩ := separates.positive
  have within : i ≤ k := separates.within_of_lt positive short large (magnitude ▸ right)
  obtain ⟨j, rfl⟩ : ∃ j, k = i + j := ⟨k - i, by omega⟩
  have fraction : r = (⟨n, s * 2 ^ j⟩ : Fraction).quotient := by
    rw [magnitude, quotient, pow_add]
    push_cast
    field_simp
  have den : 0 < s * 2 ^ j := Nat.mul_pos positive (Nat.two_pow_pos j)
  obtain ⟨t, num', den'⟩ := separates.isolate.eq_mid
    ((before_iff lowDen den).2 (fraction ▸ left)) ((before_iff den highDen).2 (fraction ▸ right))
    small
  dsimp only at num' den'
  have some : 0 < t := by
    by_contra zero
    rw [Nat.eq_zero_of_not_pos zero, Nat.zero_mul] at num'
    omega
  have factor : (t : ℚ) ≠ 0 := by exact_mod_cast some.ne'
  refine ⟨?_, t, j, some, num', den'⟩
  rw [fraction, quotient, quotient, num', den']
  push_cast
  rw [mul_div_mul_left _ _ factor]

/-- The middle fraction is on the same side of both powers, if it is met at all. -/
theorem mid_shows (separates : N.Separates exact rounded) (short : s ≤ 2 ^ 24)
    (large : 2 ^ 24 ≤ n) (small : n < 2 ^ 25) {t j : Nat} (some : 0 < t)
    (num : n = t * N.mid.num) (den : s * 2 ^ j = t * N.mid.den) :
    Shows exact.quotient rounded.quotient N.mid.quotient n := by
  obtain ⟨-, midDen, -, exactDen, roundedDen⟩ := separates.positive
  have atMost : N.mid.num ≤ n := num ▸ Nat.le_mul_of_pos_left _ some
  rcases separates.middle with ⟨same, same'⟩ | large' | ⟨half, odd, past⟩ | ⟨more, moreMargin⟩
  · -- the power itself
    rw [same_iff midDen exactDen] at same
    rw [same_iff midDen roundedDen] at same'
    exact ⟨fun _ => by linarith, fun less => by linarith, fun more => by linarith⟩
  · omega
  · -- the denominator is odd, and too large for a significand
    obtain rfl : t = 1 := by
      by_contra other
      have twice : 2 * N.mid.num ≤ t * N.mid.num := Nat.mul_le_mul_right _ (by omega)
      omega
    rcases Nat.eq_zero_or_pos j with rfl | shift
    · omega
    · obtain ⟨l, rfl⟩ : ∃ l, j = l + 1 := ⟨j - 1, by omega⟩
      rw [pow_succ, ← Nat.mul_assoc] at den
      omega
  · -- close above the power, but not too close
    have numerator : 0 < N.mid.num := by
      by_contra zero
      rw [Nat.eq_zero_of_not_pos zero, Nat.mul_zero] at num
      omega
    have scaled : 0 < 2 ^ 29 * N.mid.num := Nat.mul_pos (by decide) numerator
    rw [before_iff exactDen midDen] at more
    rw [before_iff roundedDen (Nat.mul_pos midDen scaled), times_quotient, Nat.cast_pred scaled,
      sub_div, div_self (by exact_mod_cast scaled.ne')] at moreMargin
    push_cast at moreMargin
    refine ⟨fun same => by linarith, fun less => by linarith, fun _ => ?_⟩
    have positive : (0 : ℚ) < N.mid.num := by exact_mod_cast numerator
    have atMost : (N.mid.num : ℚ) ≤ n := by exact_mod_cast atMost
    have nonneg : 0 ≤ N.mid.quotient := by rw [quotient]; positivity
    calc rounded.quotient < N.mid.quotient * (1 - 1 / (2 ^ 29 * N.mid.num)) := moreMargin
      _ ≤ N.mid.quotient * (1 - 1 / (2 ^ 29 * n)) := by gcongr

/-- **A certificate is enough.** -/
theorem shows (separates : N.Separates exact rounded) (positive : 0 < s) (short : s ≤ 2 ^ 24)
    (large : 2 ^ 24 ≤ n) (small : n < 2 ^ 25) (magnitude : r = n * 2 ^ i / (s * 2 ^ k)) :
    Shows exact.quotient rounded.quotient r n := by
  have nonneg : 0 ≤ r := magnitude ▸ by positivity
  have share := share_le large
  obtain ⟨below, belowMargin, above, aboveMargin⟩ := separates.outer
  by_cases left : r ≤ N.low.quotient
  · have low : 0 ≤ N.low.quotient := le_trans nonneg left
    refine ⟨fun same => by linarith, fun _ => ?_, fun more => by linarith⟩
    calc r * (1 + 1 / (2 ^ 29 * n)) ≤ N.low.quotient * (1 + 1 / 2 ^ 53) := by gcongr
      _ < rounded.quotient := belowMargin
  by_cases right : N.high.quotient ≤ r
  · refine ⟨fun same => by linarith, fun less => by linarith, fun _ => ?_⟩
    calc rounded.quotient < N.high.quotient * (1 - 1 / 2 ^ 53) := aboveMargin
      _ ≤ r * (1 - 1 / (2 ^ 29 * n)) := by gcongr
  obtain ⟨mid, t, j, some, num, den⟩ := separates.mid_of_between positive short large small
    magnitude (not_le.1 left) (not_le.1 right)
  exact mid ▸ separates.mid_shows short large small some num den

end Separates

end Neighbours

namespace Decimal

open Format

/-! ## The powers in question -/

/-- The code of a power of ten, rounded to 64 bits. -/
def powerCode (e : Nat) : Nat := double.round (10 ^ e <<< double.scale) 1

/-- What the reader multiplies a significand by: a rounded power, or the inverse of one. -/
def factor (e : Int) : ℚ :=
  if 0 ≤ e then double.value (powerCode e.toNat) else (double.value (powerCode (-e).toNat))⁻¹

/-- The binade of a power of ten, counted from `2 ^ -200`. -/
def binade (e : Int) : Nat := Nat.log2 (10 ^ e.toNat * 2 ^ 200 / 10 ^ (-e).toNat)

/-- The power of ten as a fraction between one and two. -/
def exactPower (e : Int) : Fraction :=
  ⟨10 ^ e.toNat * 2 ^ 200, 10 ^ (-e).toNat * 2 ^ binade e⟩

/-- The factor that it is read as, with the same binade left out. -/
def roundedPower (e : Int) : Fraction :=
  if 0 ≤ e then ⟨double.units (powerCode e.toNat) * 2 ^ 200, 2 ^ double.scale * 2 ^ binade e⟩
  else ⟨2 ^ double.scale * 2 ^ 200, double.units (powerCode (-e).toNat) * 2 ^ binade e⟩

/-- The best approximations of a power of ten. -/
def approximations (e : Int) : Neighbours :=
  let x := exactPower e
  .around (2 ^ 25) (x.num * (2 ^ 52 - 1)) (x.den * 2 ^ 52) (x.num * (2 ^ 52 + 1)) (x.den * 2 ^ 52)

/-- **Every power in question has a certificate.** -/
theorem separates : ∀ t : Nat, t < 91 →
    (approximations (t - 52 : Int)).Separates (exactPower (t - 52 : Int))
      (roundedPower (t - 52 : Int)) := by
  decide +kernel

theorem exactPower_quotient (e : Int) :
    (exactPower e).quotient = 10 ^ e * 2 ^ 200 / 2 ^ binade e := by
  rw [Fraction.quotient, exactPower, ten_zpow]
  simp only [Nat.cast_mul, Nat.cast_pow, Nat.cast_ofNat]
  rw [div_mul_eq_mul_div, div_div]

theorem roundedPower_quotient (e : Int) :
    (roundedPower e).quotient = factor e * 2 ^ 200 / 2 ^ binade e := by
  unfold Fraction.quotient roundedPower factor Format.value
  split <;> simp only [Nat.cast_mul, Nat.cast_pow, Nat.cast_ofNat]
  · rw [div_mul_eq_mul_div, div_div]
  · rw [inv_div, div_mul_eq_mul_div, div_div]

/-- **Few digits stay off the midpoints.**  The midpoint is a multiple of a power of two
by a number of 25 bits. -/
theorem margin {e : Int} (least : -52 ≤ e) (most : e ≤ 38) {s n i : Nat} (positive : 0 < s)
    (short : s ≤ 2 ^ 24) (large : 2 ^ 24 ≤ n) (small : n < 2 ^ 25) {middle : ℚ}
    (middle_eq : middle = n * 2 ^ i / 2 ^ 200) :
    (middle = s * 10 ^ e → middle = s * factor e) ∧
      (middle < s * 10 ^ e → middle + 2 ^ i / 2 ^ 229 < s * factor e) ∧
        (s * 10 ^ e < middle → s * factor e < middle - 2 ^ i / 2 ^ 229) := by
  obtain ⟨t, bound, rfl⟩ : ∃ t : Nat, t < 91 ∧ (t - 52 : Int) = e :=
    ⟨(e + 52).toNat, by omega, by omega⟩
  have shows {r : ℚ} (same) := (separates t bound).shows (r := r) (i := i)
    (k := binade (t - 52 : Int)) positive short large small same
  rw [exactPower_quotient, roundedPower_quotient] at shows
  generalize (t - 52 : Int) = e at shows ⊢
  generalize binade e = k at shows
  -- everything is counted in the significand times `2 ^ (k - 200)`
  have unit : (0 : ℚ) < s * 2 ^ k / 2 ^ 200 := by positivity
  have count (x : ℚ) : s * x = x * 2 ^ 200 / 2 ^ k * (s * 2 ^ k / 2 ^ 200) := by field_simp
  have whole : middle = n * 2 ^ i / (s * 2 ^ k) * (s * 2 ^ k / 2 ^ 200) := by
    rw [middle_eq]
    field_simp
  have share : (2 ^ i / 2 ^ 229 : ℚ) = middle * (1 / (2 ^ 29 * n)) := by
    have positive : (0 : ℚ) < n := by exact_mod_cast (by omega : 0 < n)
    rw [middle_eq]
    field_simp
  obtain ⟨atExact, before, behind⟩ := shows rfl
  rw [share, count (10 ^ e), count (factor e), whole]
  refine ⟨fun same => ?_, fun less => ?_, fun more => ?_⟩
  · rw [atExact (mul_right_cancel₀ unit.ne' same)]
  · have := mul_lt_mul_of_pos_right (before (lt_of_mul_lt_mul_right less unit.le)) unit
    linarith
  · have := mul_lt_mul_of_pos_right (behind (lt_of_mul_lt_mul_right more unit.le)) unit
    linarith

end Decimal

end Retrieval
