/-
# Retrieval.Proofs.Decimal.Midpoint -- printed decimals close to a midpoint

A decimal that is printed for a 32-bit float and comes close to an end of the float's
interval has few digits (`Format.Chosen.short_of_near_upper` and `short_of_near_lower`):
only a grid about as coarse as the interval has its points so far away from the float.
Few digits bound the exponent as well (`Format.Chosen.exponent_bounds`).

The ends themselves are midpoints of 32-bit floats, and 64-bit floats as well.  So a
magnitude that is rounded to 64 bits does not pass them (`Format.Rounds.keeps`).
-/
import Retrieval.Proofs.Decimal.Shortest

namespace Retrieval

set_option autoImplicit false

namespace Format

open Decimal

variable {b code n i : Nat} {d : Decimal} {q : ℚ}

theorem single_hidden : single.hidden = 2 ^ 23 := single.hidden_eq

theorem double_hidden : double.hidden = 2 ^ 52 := double.hidden_eq

/-! ## The interval of a 32-bit float -/

/-- The ends of an interval, and how wide it is. -/
theorem single_interval (b : Nat) : ∃ before behind : ℚ, 0 < before ∧ 0 < behind ∧
    single.middle b = single.value (b + 1) - before ∧
    single.middle (b + 1) = single.value (b + 1) + behind ∧
    single.middle b < 2 ^ 25 * before ∧ single.middle (b + 1) < 2 ^ 25 * behind ∧
    single.middle (b + 1) ≤ 2 ^ 24 * (before + behind) := by
  have first : (0 : ℚ) < single.gap b := by exact_mod_cast gap_pos b
  have second : (0 : ℚ) < single.gap (b + 1) := by exact_mod_cast gap_pos (b + 1)
  have unit : (0 : ℚ) < 2 ^ (single.scale + 1) := by positivity
  have far (c : Nat) : single.middle c < 2 ^ 25 * (single.gap c / 2 ^ (single.scale + 1)) := by
    have counts := upperEnd_lt_mul_gap (F := single) c
    rw [single_hidden] at counts
    rw [middle, ← mul_div_assoc]
    exact div_lt_div_of_pos_right (by exact_mod_cast counts) unit
  have wide := upperEnd_succ_le (F := single) b
  rw [single_hidden] at wide
  refine ⟨_, _, div_pos first unit, div_pos second unit, middle_eq_sub b, middle_eq (b + 1),
    far b, far (b + 1), ?_⟩
  rw [middle, ← add_div, ← mul_div_assoc]
  exact div_le_div_of_nonneg_right (by exact_mod_cast wide) unit.le

namespace Chosen

/-- A decimal that is not many steps from zero has few digits. -/
theorem short_of_le
    (bound : 2 ^ 26 * d.magnitude ≤ 2 ^ 50 * 10 ^ d.exponent + 2 * d.magnitude) :
    d.significand ≤ 2 ^ 24 := by
  have counts : (2 ^ 26 * d.significand : ℚ) ≤ 2 ^ 50 + 2 * d.significand := by
    rw [← mul_le_mul_iff_of_pos_right (ten_pos d.exponent)]
    rw [magnitude] at bound
    linarith
  have counts : 2 ^ 26 * d.significand ≤ 2 ^ 50 + 2 * d.significand := by exact_mod_cast counts
  omega

/-- **Close to the upper end there are few digits.** -/
theorem short_of_near_upper (chosen : single.Chosen b d)
    (near : 2 ^ 51 * (single.middle (b + 1) - d.magnitude) ≤ d.magnitude) :
    d.significand ≤ 2 ^ 24 := by
  obtain ⟨before, behind, -, some, lower, upper, -, far, wide⟩ := single_interval b
  have inside := chosen.rounds.behind.1
  refine short_of_le ?_
  rcases le_total d.magnitude (single.value (b + 1)) with below | above
  · -- the float is between the decimal and this end, and too far from it
    linarith
  · rcases chosen.high above with past | nearer
    · linarith
    · linarith

/-- **Close to the lower end there are few digits.** -/
theorem short_of_near_lower (chosen : single.Chosen b d)
    (near : 2 ^ 51 * (d.magnitude - single.middle b) ≤ d.magnitude) :
    d.significand ≤ 2 ^ 24 := by
  obtain ⟨before, behind, some, -, lower, upper, far, -, wide⟩ := single_interval b
  have inside := (chosen.rounds.before b rfl).1
  have inside' := chosen.rounds.behind.1
  refine short_of_le ?_
  rcases le_total d.magnitude (single.value (b + 1)) with below | above
  · rcases chosen.low below with past | nearer
    · linarith
    · linarith
  · -- the float is between the decimal and this end, and too far from it
    linarith

/-- **Few digits have no small exponent:** the decimal is not below the first midpoint. -/
theorem le_exponent (chosen : single.Chosen b d) {m k : Nat} (few : d.significand ≤ m)
    (enough : 2 ^ 150 * m < 10 ^ (k + 1)) : -(k : Int) ≤ d.exponent := by
  by_contra less
  have first : single.middle 0 = 1 / 2 ^ 150 := by rw [middle]; rfl
  have lower := (chosen.rounds.before b rfl).1
  have start := single.middle_strictMono.monotone (Nat.zero_le b)
  have fine : (10 : ℚ) ^ d.exponent ≤ 1 / 10 ^ (k + 1) := by
    rw [one_div, ← zpow_natCast, ← zpow_neg]
    exact zpow_le_zpow_right₀ (by norm_num) (by push_cast; omega)
  have counts : (d.significand : ℚ) ≤ m := by exact_mod_cast few
  have small : d.magnitude < 1 / 2 ^ 150 := by
    calc d.magnitude ≤ m * (1 / 10 ^ (k + 1)) :=
          mul_le_mul counts fine (ten_pos _).le (Nat.cast_nonneg _)
      _ < 1 / 2 ^ 150 := by
          rw [mul_one_div, div_lt_div_iff₀ (by positivity) (by positivity), one_mul, mul_comm]
          exact_mod_cast enough
  linarith

/-- A decimal that rounds to a finite float is less than `2 ^ 128`. -/
theorem magnitude_lt (chosen : single.Chosen b d) (finite : b + 1 < single.infinity) :
    d.magnitude < 2 ^ 128 := by
  have last : single.middle (single.infinity - 1) < 2 ^ 128 := by
    have counts : single.upperEnd (single.infinity - 1) < 2 ^ 128 * 2 ^ (single.scale + 1) := by
      decide +kernel
    rw [middle, div_lt_iff₀ (by positivity)]
    exact_mod_cast counts
  have upper := chosen.rounds.behind.1
  have below := single.middle_strictMono.monotone (show b + 1 ≤ single.infinity - 1 by omega)
  linarith

/-- **No large exponent:** the decimal rounds to a finite float. -/
theorem exponent_le (chosen : single.Chosen b d) (finite : b + 1 < single.infinity) :
    d.exponent ≤ 38 := by
  by_contra more
  have step : (10 : ℚ) ^ (39 : Int) ≤ 10 ^ d.exponent :=
    zpow_le_zpow_right₀ (by norm_num) (by omega)
  have one : (1 : ℚ) ≤ d.significand := by exact_mod_cast chosen.significand_pos
  have large : (10 : ℚ) ^ d.exponent ≤ d.magnitude :=
    le_mul_of_one_le_left (ten_pos _).le one
  have small := chosen.magnitude_lt finite
  norm_num at step small
  linarith

end Chosen

/-! ## Midpoints among 64-bit floats -/

/-- Any positive number can be doubled up to 25 bits. -/
theorem exists_shift {m : Nat} (positive : 0 < m) (small : m < 2 ^ 25) :
    ∃ j, j ≤ 24 ∧ 2 ^ 24 ≤ m * 2 ^ j ∧ m * 2 ^ j < 2 ^ 25 := by
  have low := Nat.log2_self_le positive.ne'
  have high : m < 2 ^ (m.log2 + 1) := Nat.lt_log2_self
  have bound : m.log2 < 25 := (Nat.log2_lt positive.ne').2 small
  refine ⟨24 - m.log2, Nat.sub_le _ _, ?_, ?_⟩
  · calc 2 ^ 24 = 2 ^ m.log2 * 2 ^ (24 - m.log2) := by rw [← pow_add]; congr 1; omega
      _ ≤ m * 2 ^ (24 - m.log2) := Nat.mul_le_mul_right _ low
  · calc m * 2 ^ (24 - m.log2) < 2 ^ (m.log2 + 1) * 2 ^ (24 - m.log2) :=
          Nat.mul_lt_mul_of_pos_right high (Nat.two_pow_pos _)
      _ = 2 ^ 25 := by rw [← pow_add]; congr 1; omega

/-- **A midpoint of 32-bit floats has 25 bits.** -/
theorem exists_middle_eq (c : Nat) : ∃ n i : Nat, 2 ^ 24 ≤ n ∧ n < 2 ^ 25 ∧
    single.middle c = n * 2 ^ i / 2 ^ 200 := by
  obtain ⟨m, k, here⟩ := single.exists_inBinade c
  have below := here.below
  rw [single_hidden] at below
  obtain ⟨j, most, large, small⟩ := exists_shift (m := 2 * m + 1) (by omega) (by omega)
  obtain ⟨i, shift⟩ : ∃ i, i + j = k + 50 := ⟨k + 50 - j, by omega⟩
  refine ⟨(2 * m + 1) * 2 ^ j, i, large, small, ?_⟩
  have counts : (2 * m + 1) * 2 ^ k * 2 ^ 200 = (2 * m + 1) * 2 ^ j * 2 ^ i * 2 ^ 150 := by
    calc (2 * m + 1) * 2 ^ k * 2 ^ 200 = (2 * m + 1) * 2 ^ (k + 50) * 2 ^ 150 := by ring
      _ = (2 * m + 1) * 2 ^ j * 2 ^ i * 2 ^ 150 := by rw [← shift]; ring
  rw [middle, here.upperEnd_eq, show single.scale + 1 = 150 from rfl,
    div_eq_div_iff (by positivity) (by positivity)]
  exact_mod_cast counts

/-- **A rounded magnitude does not pass a midpoint of 32-bit floats,** unless the exact
one comes as close to it as a rounding goes. -/
theorem Rounds.keeps (rounds : double.Rounds q code) (large : 2 ^ 24 ≤ n) (small : n < 2 ^ 25)
    {middle : ℚ} (middle_eq : middle = n * 2 ^ i / 2 ^ 200) :
    (middle = q → middle = double.value code) ∧
      (middle + 2 ^ i / 2 ^ 229 < q → middle < double.value code) ∧
        (q < middle - 2 ^ i / 2 ^ 229 → double.value code < middle) := by
  -- the midpoint is a 64-bit float as well
  obtain ⟨c, place⟩ : ∃ c, c + 1 = (i + 846) * double.hidden + n * 2 ^ 28 :=
    ⟨(i + 846) * double.hidden + n * 2 ^ 28 - 1, by omega⟩
  have here : double.InBinade (c + 1) (n * 2 ^ 28) (i + 846) :=
    ⟨place, by rw [double_hidden]; omega, .inr (by rw [double_hidden]; omega)⟩
  have share (m : Nat) : (2 ^ (i + 846) / 2 ^ (846 + m) : ℚ) = 2 ^ i / 2 ^ m := by
    rw [pow_add, pow_add, mul_comm (2 ^ 846 : ℚ), mul_div_mul_right _ _ (by positivity)]
  have exact : double.value (c + 1) = middle := by
    rw [value, here.units_eq, middle_eq, show double.scale = 846 + 228 from rfl, Nat.cast_mul,
      Nat.cast_pow 2 (i + 846), Nat.cast_two, mul_div_assoc, share]
    push_cast
    field_simp
    norm_num
  have half : (double.gap (c + 1) / 2 ^ (double.scale + 1) : ℚ) = 2 ^ i / 2 ^ 229 := by
    rw [here.gap_eq, show double.scale + 1 = 846 + 229 from rfl, Nat.cast_pow, Nat.cast_two, share]
  have half' : (double.gap c / 2 ^ (double.scale + 1) : ℚ) ≤ 2 ^ i / 2 ^ 229 := by
    rw [← half]
    exact div_le_div_of_nonneg_right (by exact_mod_cast gap_mono (Nat.le_succ c)) (by positivity)
  rw [← exact]
  refine ⟨fun same => ?_, fun above => ?_, fun below => ?_⟩
  · rw [← same] at rounds
    rw [rounds.unique (rounds_value (c + 1))]
  · have past : double.middle (c + 1) < q := by rwa [Format.middle_eq, half]
    exact value_strictMono (rounds.lt_of_middle_lt past)
  · have before : q < double.middle c := by
      rw [middle_eq_sub]
      linarith
    exact value_strictMono (Nat.lt_succ_of_le (rounds.le_of_lt_middle before))

end Format

end Retrieval
