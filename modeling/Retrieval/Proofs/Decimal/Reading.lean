/-
# Retrieval.Proofs.Decimal.Reading -- what is printed is read back

The JSON reader rounds three times on the way to a 32-bit float: the power of ten, its
product with the significand (or the quotient), and the 64-bit result.  For the decimals
that are printed for 32-bit floats this gives the float again (`Decimal.scaled_chosen`).

The first two roundings stay on the side of each midpoint of 32-bit floats that the exact
decimal is on (`Format.Chosen.keeps_side`).  Away from the midpoint there is room for
both, and close to it the decimal has few digits, so that `Decimal.margin` applies.
-/
import Retrieval.Decimal.Reading
import Retrieval.Proofs.Binary.Arithmetic
import Retrieval.Proofs.Decimal.Margin
import Retrieval.Proofs.Decimal.Midpoint

namespace Retrieval

set_option autoImplicit false

namespace Decimal

open Format

variable {s b : Nat} {e : Int} {d : Decimal}

/-! ## Powers of ten -/

/-- Small powers of ten are normal and finite. -/
theorem powerCode_bounds : ∀ a : Nat, a < 61 →
    double.hidden ≤ powerCode a ∧ powerCode a < double.infinity := by
  decide +kernel

theorem power_hasCode {a : Nat} (small : a < 61) : (power a).HasCode false (powerCode a) :=
  Binary.ofCode_hasCode false (powerCode_bounds a small).2

theorem powerCode_rounds (a : Nat) : double.Rounds (10 ^ a) (powerCode a) := by
  have rounds := round_rounds (F := double) (by decide) Nat.one_pos (10 ^ a <<< double.scale)
  have exact : ((10 ^ a <<< double.scale : Nat) / (1 : Nat) / 2 ^ double.scale : ℚ) = 10 ^ a := by
    rw [Nat.shiftLeft_eq, Nat.cast_mul, Nat.cast_pow, Nat.cast_pow, Nat.cast_one, div_one]
    exact mul_div_cancel_right₀ _ (by positivity)
  rwa [exact] at rounds

/-- A small power of ten is close to its rounded value. -/
theorem powerCode_close {a : Nat} (small : a < 61) :
    double.value (powerCode a) * (1 - 1 / 2 ^ 53) ≤ 10 ^ a ∧
      (10 : ℚ) ^ a ≤ double.value (powerCode a) * (1 + 1 / 2 ^ 53) := by
  have close := (powerCode_rounds a).close (powerCode_bounds a small).1
  have part : (2 * double.hidden : ℚ) = 2 ^ 53 := by
    rw [double_hidden]
    norm_num
  rwa [part] at close

theorem powerCode_pos {a : Nat} (small : a < 61) : 0 < double.value (powerCode a) :=
  value_pos (lt_of_lt_of_le double.hidden_pos (powerCode_bounds a small).1)

/-- **The factor is close to the power of ten.** -/
theorem factor_close (least : -60 ≤ e) (most : e ≤ 60) :
    0 < factor e ∧ factor e * (1 - 1 / 2 ^ 52) ≤ 10 ^ e ∧
      10 ^ e ≤ factor e * (1 + 1 / 2 ^ 52) := by
  unfold factor
  split
  · obtain ⟨a, rfl⟩ := Int.eq_ofNat_of_zero_le ‹0 ≤ e›
    have positive := powerCode_pos (a := a) (by omega)
    obtain ⟨lower, upper⟩ := powerCode_close (a := a) (by omega)
    rw [Int.toNat_natCast, zpow_natCast]
    exact ⟨positive, by linarith, by linarith⟩
  · obtain ⟨a, rfl⟩ : ∃ a : Nat, e = -a := ⟨(-e).toNat, by omega⟩
    have positive := powerCode_pos (a := a) (by omega)
    obtain ⟨lower, upper⟩ := powerCode_close (a := a) (by omega)
    rw [Int.neg_neg, Int.toNat_natCast, zpow_neg, zpow_natCast]
    have power : (0 : ℚ) < 10 ^ a := by positivity
    refine ⟨inv_pos.2 positive, ?_, ?_⟩
    · rw [inv_mul_le_iff₀ positive, ← div_eq_mul_inv, le_div_iff₀ power]
      linarith
    · rw [← div_eq_inv_mul, inv_le_comm₀ power (by positivity), inv_div, div_le_iff₀ (by norm_num)]
      linarith

/-- One tenth is divided out exactly. -/
theorem factor_tenth : factor (-1) = 10 ^ (-1 : Int) := by
  have counts : double.units (powerCode 1) = 10 * 2 ^ double.scale := by decide +kernel
  have exact : double.value (powerCode 1) = 10 := by
    rw [value, counts, Nat.cast_mul, Nat.cast_pow, Nat.cast_two]
    exact mul_div_cancel_right₀ _ (by positivity)
  rw [factor, if_neg (by decide), zpow_neg_one]
  exact congrArg (·⁻¹) exact

/-! ## Two roundings -/

theorem fits_of_le {q : ℚ} (bound : q ≤ 2 ^ 200) : double.Fits q := by
  have counts : 2 ^ 200 * 2 ^ (double.scale + 1) < double.upperEnd (double.infinity - 1) := by
    decide +kernel
  have last : (2 ^ 200 : ℚ) < double.middle (double.infinity - 1) := by
    rw [middle, lt_div_iff₀ (by positivity)]
    exact_mod_cast counts
  exact lt_of_le_of_lt bound last

/-- A short significand times the factor is far from infinity. -/
theorem fits_factor (short : s < 2 ^ 53) (least : -60 ≤ e) (most : e ≤ 38) :
    double.Fits (s * factor e) := by
  obtain ⟨positive, lower, -⟩ := factor_close least (by omega)
  have bound : (10 : ℚ) ^ e ≤ 10 ^ (38 : Int) := zpow_le_zpow_right₀ (by norm_num) most
  have counts : (s : ℚ) ≤ 2 ^ 53 := by exact_mod_cast short.le
  refine fits_of_le ?_
  calc s * factor e ≤ 2 ^ 53 * (2 * 10 ^ (38 : Int)) := by
        refine mul_le_mul counts ?_ positive.le (by norm_num)
        linarith
    _ ≤ 2 ^ 200 := by norm_num

/-- The magnitude, scaled by one operation. -/
theorem scaleBy_rounds (steps : Nat) (short : s < 2 ^ 53) (least : -60 ≤ e) (most : e ≤ 38) :
    ∃ y code, scaleBy steps (Binary.ofInt s) e = some y ∧ y.HasCode false code ∧
      double.Rounds (s * factor e) code := by
  have fits := fits_factor short least most
  have whole : (s : ℚ) ≤ 2 ^ 53 := by exact_mod_cast short.le
  obtain ⟨c, left, exact⟩ := Binary.ofInt_exact (F := double) (n := s) (by decide) (by decide)
    (by rw [double_hidden]; omega) (fits_of_le (by linarith))
  unfold scaleBy
  rw [if_pos (by rw [largestPower]; omega)]
  rw [factor, ← exact] at fits ⊢
  by_cases natural : 0 ≤ e
  · rw [if_pos natural] at fits
    rw [if_pos natural, if_pos natural]
    have right := power_hasCode (a := e.toNat) (by omega)
    obtain ⟨code, has, rounds⟩ := Binary.mul_rounds (by decide) (by decide) left right fits
    refine ⟨_, code, ?_, has, rounds⟩
    simp only [has.isInfinite, Bool.false_eq_true, if_false]
  · rw [if_neg natural, ← div_eq_mul_inv] at fits
    rw [if_neg natural, if_neg natural, ← div_eq_mul_inv]
    have small : (-e).toNat < 61 := by omega
    have nonzero := lt_of_lt_of_le double.hidden_pos (powerCode_bounds _ small).1
    obtain ⟨code, has, rounds⟩ :=
      Binary.div_rounds (by decide) (by decide) left (power_hasCode small) nonzero fits
    exact ⟨_, code, rfl, has, rounds⟩

/-- **The reader rounds the product with the factor.** -/
theorem scaled_rounds (negative : Bool) (short : s < 2 ^ 53) (least : -60 ≤ e) (most : e ≤ 38) :
    ∃ y code, scaled negative ⟨s, e⟩ = some y ∧ y.HasCode negative code ∧
      double.Rounds (s * factor e) code := by
  obtain ⟨y, code, scaled', has, rounds⟩ :=
    scaleBy_rounds (e.natAbs / largestPower + 1) short least most
  refine ⟨if negative then -y else y, code, by rw [scaled, scaled', Option.map_some], ?_, rounds⟩
  cases negative with
  | false => exact has
  | true => exact has.neg

end Decimal

namespace Format

open Decimal

variable {b c code : Nat} {d : Decimal}

/-- **The roundings stay on their side of a midpoint,** when closeness to it makes the
decimal short. -/
theorem Chosen.keeps_side (chosen : single.Chosen b d) (finite : b + 1 < single.infinity)
    (least : -60 ≤ d.exponent)
    (few : 2 ^ 51 * |single.middle c - d.magnitude| ≤ d.magnitude → d.significand ≤ 2 ^ 24)
    (rounds : double.Rounds (d.significand * factor d.exponent) code) :
    (single.middle c = d.magnitude → single.middle c = double.value code) ∧
      (single.middle c < d.magnitude → single.middle c < double.value code) ∧
        (d.magnitude < single.middle c → double.value code < single.middle c) := by
  obtain ⟨n, i, large, small, middle_eq⟩ := exists_middle_eq c
  obtain ⟨touch, above, below⟩ := rounds.keeps large small middle_eq
  have most := chosen.exponent_le finite
  by_cases near : 2 ^ 51 * |single.middle c - d.magnitude| ≤ d.magnitude
  · have few := few near
    obtain ⟨touch', above', below'⟩ := margin (chosen.le_exponent few (by norm_num)) most
      chosen.significand_pos few large small middle_eq
    exact ⟨fun same => touch (touch' same), fun less => above (above' less),
      fun more => below (below' more)⟩
  · -- far from the midpoint there is room for both roundings
    obtain ⟨-, lower, upper⟩ := factor_close least (by omega)
    have digits : (0 : ℚ) < d.significand := by exact_mod_cast chosen.significand_pos
    have lower := mul_le_mul_of_nonneg_left lower digits.le
    have upper := mul_le_mul_of_nonneg_left upper digits.le
    have positive := chosen.magnitude_pos
    have share : (2 ^ i / 2 ^ 229 : ℚ) ≤ single.middle c / 2 ^ 53 := by
      have large : (2 ^ 24 : ℚ) ≤ n := by exact_mod_cast large
      rw [middle_eq, div_div, div_le_div_iff₀ (by positivity) (by positivity)]
      have scaled := mul_le_mul_of_nonneg_right large (show (0 : ℚ) ≤ 2 ^ i by positivity)
      linarith
    rw [← magnitude] at lower upper
    rw [not_le] at near
    refine ⟨fun same => ?_, fun less => above ?_, fun more => below ?_⟩
    · rw [same, sub_self, abs_zero, mul_zero] at near
      linarith
    · rw [abs_of_neg (by linarith)] at near
      linarith
    · rw [abs_of_pos (by linarith)] at near
      linarith

/-- **The 64-bit result rounds to the float.** -/
theorem Chosen.rounds_twice (chosen : single.Chosen b d) (finite : b + 1 < single.infinity)
    (least : -60 ≤ d.exponent)
    (rounds : double.Rounds (d.significand * factor d.exponent) code) :
    single.Rounds (double.value code) (b + 1) := by
  have lower := (chosen.rounds.before b rfl).1
  have upper := chosen.rounds.behind.1
  obtain ⟨touchLow, aboveLow, -⟩ := chosen.keeps_side (c := b) finite least
    (fun near => chosen.short_of_near_lower
      (by rwa [abs_sub_comm, abs_of_nonneg (by linarith)] at near))
    rounds
  obtain ⟨touchHigh, -, belowHigh⟩ := chosen.keeps_side (c := b + 1) finite least
    (fun near => chosen.short_of_near_upper (by rwa [abs_of_nonneg (by linarith)] at near))
    rounds
  constructor
  · intro c same
    obtain rfl : b = c := by omega
    rcases lower.lt_or_eq with less | touch
    · have strict := aboveLow less
      exact ⟨strict.le, fun same => absurd same strict.ne'⟩
    · exact ⟨(touchLow touch).le, fun _ => (chosen.rounds.before b rfl).2 touch.symm⟩
  · rcases upper.lt_or_eq with less | touch
    · have strict := belowHigh less
      exact ⟨strict.le, fun same => absurd same strict.ne⟩
    · exact ⟨(touchHigh touch.symm).ge, fun _ => chosen.rounds.behind.2 touch⟩

end Format

namespace Decimal

open Format

variable {b : Nat} {d : Decimal}

/-- **A printed decimal is read back.** -/
theorem scaled_chosen (negative : Bool) (chosen : single.Chosen b d)
    (finite : b + 1 < single.infinity) (few : d.significand < 80 * single.hidden) :
    ∃ y, d.scaled negative = some y ∧ (y.convert .single).HasCode negative (b + 1) := by
  rw [single_hidden] at few
  have least := chosen.le_exponent (k := 54) (m := 80 * 2 ^ 23) few.le (by norm_num)
  obtain ⟨y, code, read, has, rounds⟩ := scaled_rounds (s := d.significand) (e := d.exponent)
    negative (by omega) (by omega) (chosen.exponent_le finite)
  exact ⟨y, read, Binary.convert_rounds (by decide) has
    (chosen.rounds_twice finite (by omega) rounds) finite⟩

/-- **A whole number is read back from one more place.** -/
theorem scaled_whole (negative : Bool) (chosen : single.Chosen b d)
    (finite : b + 1 < single.infinity) {m : Nat} (whole : d.magnitude = m)
    (short : 10 * m < 2 ^ 53) : ∃ y, scaled negative ⟨10 * m, -1⟩ = some y ∧
      (y.convert .single).HasCode negative (b + 1) := by
  obtain ⟨y, code, read, has, rounds⟩ :=
    scaled_rounds (e := -1) negative short (by decide) (by decide)
  -- one tenth is exact, and so is the whole number
  obtain ⟨same, exact⟩ := exists_value_eq (F := double) (n := m) (by rw [double_hidden]; omega)
  have product : ((10 * m : Nat) * factor (-1) : ℚ) = double.value same := by
    rw [factor_tenth, exact]
    push_cast
    rw [zpow_neg_one]
    ring
  rw [product] at rounds
  have nearest : single.Rounds (double.value code) (b + 1) := by
    rw [rounds.unique (rounds_value same), exact, ← whole]
    exact chosen.rounds
  exact ⟨y, read, Binary.convert_rounds (by decide) has nearest finite⟩

/-- Zero is read back. -/
theorem scaled_zero (negative : Bool) : ∃ y, scaled negative ⟨0, -1⟩ = some y ∧
    (y.convert .single).HasCode negative 0 := by
  obtain ⟨y, code, read, has, rounds⟩ :=
    scaled_rounds (s := 0) (e := -1) negative (by decide) (by decide) (by decide)
  rw [Nat.cast_zero, zero_mul, ← double.value_zero] at rounds
  have nearest : single.Rounds (double.value code) 0 := by
    rw [rounds.unique (rounds_value 0), double.value_zero, ← single.value_zero]
    exact rounds_value 0
  exact ⟨y, read, Binary.convert_rounds (by decide) has nearest (by decide)⟩

end Decimal

end Retrieval
