/-
# Retrieval.Proofs.Decimal.Shortest -- where the printed decimal lies

The decimal that is printed for a positive code rounds to the code.  It need not be
close to it: when the grid is as coarse as the interval is wide, the only point in the
interval may be next to one of its ends.  `Format.Chosen` says how far that goes.  A
point below the code is within half a grid step of it, or one step on leaves the
interval; and likewise above.

`Format.shortest_chosen` is this for the decimal that the search ends with, and
`Format.shortest_short` bounds its digits: the grid before had no point in the interval,
so it was too coarse for one.
-/
import Mathlib.Algebra.Order.Field.Power
import Mathlib.Tactic.NormNum
import Retrieval.Decimal.Shortest
import Retrieval.Proofs.Binary.Rounding

namespace Retrieval

set_option autoImplicit false

namespace Decimal

/-- The magnitude of a decimal. -/
def magnitude (d : Decimal) : ℚ := d.significand * 10 ^ d.exponent

theorem lt_pow_digitCount (n : Nat) : n < 10 ^ digitCount n :=
  (Nat.length_toDigits_le_iff (by decide) Nat.length_toDigits_pos).1 (Nat.le_refl _)

theorem grid_num_pos (F : Format) (e : Int) : 0 < (grid F e).num := by
  rw [grid, Nat.shiftLeft_eq]
  exact Nat.mul_pos (Nat.pow_pos (by decide)) (Nat.two_pow_pos _)

theorem grid_den_pos (F : Format) (e : Int) : 0 < (grid F e).den :=
  Nat.pow_pos (n := (-e).toNat) (by decide)

/-- A power of ten as a quotient of natural numbers, one of which is one. -/
theorem ten_zpow (e : Int) : (10 : ℚ) ^ e = 10 ^ e.toNat / 10 ^ (-e).toNat := by
  rcases Int.le_total 0 e with natural | negative
  · obtain ⟨n, rfl⟩ := Int.eq_ofNat_of_zero_le natural
    have none : (-(n : Int)).toNat = 0 := by omega
    rw [none, Int.toNat_natCast, zpow_natCast, pow_zero, div_one]
  · obtain ⟨n, rfl⟩ : ∃ n : Nat, e = -n := ⟨(-e).toNat, by omega⟩
    have none : (-(n : Int)).toNat = 0 := by omega
    rw [none, Int.neg_neg, Int.toNat_natCast, zpow_neg, zpow_natCast, pow_zero, one_div]

/-- The step of a grid, which is measured in half units. -/
theorem grid_eq (F : Format) (e : Int) :
    ((grid F e).num / (grid F e).den / 2 ^ (F.scale + 1) : ℚ) = 10 ^ e := by
  rw [grid, Nat.shiftLeft_eq, Nat.pow_eq, Nat.pow_eq, ten_zpow]
  push_cast
  field_simp

end Decimal

namespace Format

open Decimal

variable {F : Format} {b code s : Nat} {e : Int}

/-! ## Points of a grid -/

theorem ten_pos (e : Int) : (0 : ℚ) < 10 ^ e := zpow_pos (by norm_num) e

/-- A point of a grid, counted in half units and without fractions. -/
theorem point_eq (F : Format) (e : Int) (s : Nat) :
    (s * 10 ^ e : ℚ) = ((s * (grid F e).num : Nat) : ℚ) / ((grid F e).den * 2 ^ (F.scale + 1)) := by
  rw [← grid_eq F e]
  push_cast
  field_simp

theorem denominator_pos (F : Format) (e : Int) :
    (0 : ℚ) < (grid F e).den * 2 ^ (F.scale + 1) := by
  have : (0 : ℚ) < (grid F e).den := by exact_mod_cast grid_den_pos F e
  positivity

/-- A point of a grid is owned by the code that it rounds to. -/
theorem owns_iff : F.owns (b + 1) (grid F e) s = true ↔ F.Rounds (s * 10 ^ e) (b + 1) := by
  have denominator := denominator_pos F e
  have clear (c : Nat) : F.middle c =
      ((F.upperEnd c * (grid F e).den : Nat) : ℚ) / ((grid F e).den * 2 ^ (F.scale + 1)) := by
    have : (grid F e).den ≠ 0 := Nat.ne_of_gt (grid_den_pos F e)
    rw [middle]
    push_cast
    field_simp
  have below : F.middle b ≤ s * 10 ^ e ↔
      F.upperEnd b * (grid F e).den ≤ s * (grid F e).num := by
    rw [clear, point_eq F e s, div_le_div_iff_of_pos_right denominator, Nat.cast_le]
  have above : s * 10 ^ e ≤ F.middle (b + 1) ↔
      s * (grid F e).num ≤ F.upperEnd (b + 1) * (grid F e).den := by
    rw [clear, point_eq F e s, div_le_div_iff_of_pos_right denominator, Nat.cast_le]
  have atLower : s * 10 ^ e = F.middle b ↔
      s * (grid F e).num = F.upperEnd b * (grid F e).den := by
    rw [clear, point_eq F e s, div_left_inj' denominator.ne', Nat.cast_inj]
  have atUpper : s * 10 ^ e = F.middle (b + 1) ↔
      s * (grid F e).num = F.upperEnd (b + 1) * (grid F e).den := by
    rw [clear, point_eq F e s, div_left_inj' denominator.ne', Nat.cast_inj]
  constructor
  · intro owned
    refine ⟨?_, ?_⟩
    · rintro c same
      obtain rfl : b = c := by omega
      rw [below, atLower]
      unfold owns at owned
      split at owned <;> rw [decide_eq_true_eq, lowerEnd_succ] at owned <;> omega
    · rw [above, atUpper]
      unfold owns at owned
      split at owned <;> rw [decide_eq_true_eq, lowerEnd_succ] at owned <;> omega
  · rintro ⟨lower, upper⟩
    have lower := lower b rfl
    rw [below, atLower] at lower
    rw [above, atUpper] at upper
    unfold owns
    split <;> rw [decide_eq_true_eq, lowerEnd_succ] <;> omega

/-- The code's magnitude, counted like the points of a grid. -/
theorem value_eq (F : Format) (code : Nat) (e : Int) :
    F.value code = ((2 * F.units code * (grid F e).den : Nat) : ℚ) /
      ((grid F e).den * 2 ^ (F.scale + 1)) := by
  have : (grid F e).den ≠ 0 := Nat.ne_of_gt (grid_den_pos F e)
  rw [value, pow_succ]
  push_cast
  field_simp

/-- The grid point below a code. -/
def pointBelow (F : Format) (code : Nat) (e : Int) : Nat :=
  2 * F.units code * (grid F e).den / (grid F e).num

theorem pointBelow_le (F : Format) (code : Nat) (e : Int) :
    F.pointBelow code e * 10 ^ e ≤ F.value code := by
  rw [value_eq F code e, point_eq, div_le_div_iff_of_pos_right (denominator_pos F e), Nat.cast_le]
  exact Nat.div_mul_le_self _ _

theorem lt_pointBelow_succ (F : Format) (code : Nat) (e : Int) :
    F.value code < (F.pointBelow code e + 1 : Nat) * 10 ^ e := by
  rw [value_eq F code e, point_eq, div_lt_div_iff_of_pos_right (denominator_pos F e), Nat.cast_lt,
    ← Nat.div_lt_iff_lt_mul (grid_num_pos F e)]
  exact Nat.lt_succ_self _

/-- In which half of a step a code is. -/
theorem half_iff (F : Format) (code : Nat) (e : Int) (s : Nat) :
    (2 * F.value code ≤ (2 * s + 1 : Nat) * 10 ^ e ↔
      2 * (2 * F.units code * (grid F e).den) ≤ (2 * s + 1) * (grid F e).num) ∧
    ((2 * s + 1 : Nat) * 10 ^ e ≤ 2 * F.value code ↔
      (2 * s + 1) * (grid F e).num ≤ 2 * (2 * F.units code * (grid F e).den)) := by
  have double : 2 * F.value code = ((2 * (2 * F.units code * (grid F e).den) : Nat) : ℚ) /
      ((grid F e).den * 2 ^ (F.scale + 1)) := by
    rw [value_eq F code e, Nat.cast_mul 2, mul_div_assoc]
    norm_cast
  rw [double, point_eq, div_le_div_iff_of_pos_right (denominator_pos F e),
    div_le_div_iff_of_pos_right (denominator_pos F e), Nat.cast_le, Nat.cast_le]
  exact ⟨Iff.rfl, Iff.rfl⟩

/-! ## The chosen point -/

/-- The decimal rounds to the code; and on its side of the code it is within half a step
of the grid, or the next point is past the interval. -/
structure Chosen (F : Format) (b : Nat) (d : Decimal) : Prop where
  rounds : F.Rounds d.magnitude (b + 1)
  low : d.magnitude ≤ F.value (b + 1) →
    F.middle (b + 1) ≤ d.magnitude + 10 ^ d.exponent ∨
      2 * (F.value (b + 1) - d.magnitude) ≤ 10 ^ d.exponent
  high : F.value (b + 1) ≤ d.magnitude →
    d.magnitude - 10 ^ d.exponent ≤ F.middle b ∨
      2 * (d.magnitude - F.value (b + 1)) ≤ 10 ^ d.exponent
  near : d.magnitude ≤ F.value (b + 1) + 10 ^ d.exponent

/-- A decimal that is the code exactly is always a good choice. -/
theorem chosen_of_eq {d : Decimal} (same : d.magnitude = F.value (b + 1)) : F.Chosen b d := by
  have step := ten_pos d.exponent
  refine ⟨same ▸ rounds_value _, fun _ => .inr ?_, fun _ => .inr ?_, ?_⟩ <;> rw [same] <;> linarith

/-- A point between the code and its own end that is not owned has passed the end. -/
theorem middle_le_of_not_rounds {q : ℚ} (past : F.value code ≤ q)
    (other : ¬ F.Rounds q code) : F.middle code ≤ q := by
  by_contra inside
  refine other ⟨?_, by linarith, fun same => by linarith⟩
  rintro b rfl
  have less := F.middle_lt_value b
  exact ⟨by linarith, fun same => by linarith⟩

theorem le_middle_of_not_rounds {q : ℚ} (before : q ≤ F.value (b + 1))
    (other : ¬ F.Rounds q (b + 1)) : q ≤ F.middle b := by
  by_contra inside
  have less := F.value_lt_middle (b + 1)
  refine other ⟨?_, by linarith, fun same => by linarith⟩
  intro c same
  obtain rfl : b = c := by omega
  exact ⟨by linarith, fun same => by linarith⟩

/-- The grid point below the code is a good choice if the point above does not round to
the code or is farther away. -/
theorem chosen_below (rounds : F.Rounds (s * 10 ^ e) (b + 1)) (less : s * 10 ^ e ≤ F.value (b + 1))
    (more : F.value (b + 1) < (s + 1 : Nat) * 10 ^ e)
    (good : ¬ F.Rounds ((s + 1 : Nat) * 10 ^ e) (b + 1) ∨
      2 * F.value (b + 1) ≤ (2 * s + 1 : Nat) * 10 ^ e) : F.Chosen b ⟨s, e⟩ := by
  have step := ten_pos e
  constructor <;> dsimp only [magnitude]
  · exact rounds
  · intro _
    rcases good with outside | nearer
    · have past := middle_le_of_not_rounds more.le outside
      push_cast at past
      left
      linarith
    · push_cast at nearer
      right
      linarith
  · intro same
    right
    linarith
  · linarith

/-- The grid point above the code is a good choice if the point below does not round to
the code or is farther away. -/
theorem chosen_above (rounds : F.Rounds ((s + 1 : Nat) * 10 ^ e) (b + 1))
    (less : s * 10 ^ e ≤ F.value (b + 1)) (more : F.value (b + 1) < (s + 1 : Nat) * 10 ^ e)
    (good : ¬ F.Rounds (s * 10 ^ e) (b + 1) ∨
      (2 * s + 1 : Nat) * 10 ^ e ≤ 2 * F.value (b + 1)) : F.Chosen b ⟨s + 1, e⟩ := by
  have step := ten_pos e
  constructor <;> dsimp only [magnitude]
  · exact rounds
  · intro same
    linarith
  · intro _
    rcases good with outside | nearer
    · have past := le_middle_of_not_rounds less outside
      push_cast
      left
      linarith
    · push_cast at nearer ⊢
      right
      linarith
  · push_cast
    linarith

/-- **What an owned point of a grid is.** -/
theorem ownedPoint_chosen (found : F.ownedPoint (b + 1) (grid F e) = some s) :
    F.Chosen b ⟨s, e⟩ := by
  have less := pointBelow_le F (b + 1) e
  have more := lt_pointBelow_succ F (b + 1) e
  obtain ⟨firstHalf, secondHalf⟩ := half_iff F (b + 1) e (F.pointBelow (b + 1) e)
  have split := Nat.div_add_mod (2 * F.units (b + 1) * (grid F e).den) (grid F e).num
  unfold ownedPoint at found
  dsimp only at found
  rw [← pointBelow] at found split
  generalize F.pointBelow (b + 1) e = below at found less more firstHalf secondHalf split
  generalize 2 * F.units (b + 1) * (grid F e).den = here at found firstHalf secondHalf split
  have first : below * (grid F e).num = (grid F e).num * below := Nat.mul_comm _ _
  have second : (below + 1) * (grid F e).num = (grid F e).num * below + (grid F e).num := by ring
  have middle : (2 * below + 1) * (grid F e).num =
    2 * ((grid F e).num * below) + (grid F e).num := by ring
  rw [first, second] at found
  rw [middle] at firstHalf secondHalf
  split at found
  · rename_i ownBelow
    have ownBelow := owns_iff.1 ownBelow
    split at found
    · rename_i ownAbove
      have ownAbove := owns_iff.1 ownAbove
      split at found
      · cases found
        exact chosen_below ownBelow less more (.inr (firstHalf.2 (by omega)))
      · split at found
        · cases found
          exact chosen_above ownAbove less more (.inr (secondHalf.2 (by omega)))
        · -- the code is in the middle of the step
          split at found <;> cases found
          · exact chosen_below ownBelow less more (.inr (firstHalf.2 (by omega)))
          · exact chosen_above ownAbove less more (.inr (secondHalf.2 (by omega)))
    · rename_i notAbove
      rw [owns_iff] at notAbove
      cases found
      exact chosen_below ownBelow less more (.inl notAbove)
  · rename_i notBelow
    rw [owns_iff] at notBelow
    split at found
    · rename_i ownAbove
      cases found
      exact chosen_above (owns_iff.1 ownAbove) less more (.inl notBelow)
    · cases found

/-- A grid without an owned point is coarser than the first half of the interval. -/
theorem lt_of_ownedPoint_none (none : F.ownedPoint (b + 1) (grid F e) = none) :
    F.value (b + 1) - F.middle b < 10 ^ e := by
  have less := pointBelow_le F (b + 1) e
  have more := lt_pointBelow_succ F (b + 1) e
  have notBelow : ¬ F.Rounds (F.pointBelow (b + 1) e * 10 ^ e) (b + 1) := by
    rw [← owns_iff]
    intro owned
    unfold ownedPoint at none
    dsimp only at none
    rw [← pointBelow, if_pos owned] at none
    repeat' split at none
    all_goals cases none
  have end_le := le_middle_of_not_rounds less notBelow
  push_cast at more
  linarith

/-! ## The search -/

/-- On the last grid the code itself is a point. -/
theorem point_last (F : Format) (code : Nat) :
    magnitude ⟨2 * F.units code * (grid F (-F.scale)).den / (grid F (-F.scale)).num, -F.scale⟩ =
      F.value code := by
  have natural : (-(F.scale : Int)).toNat = 0 := by omega
  have whole : 2 * F.units code * (grid F (-F.scale)).den / (grid F (-F.scale)).num =
      F.units code * 5 ^ F.scale := by
    rw [grid, natural, Int.neg_neg, Int.toNat_natCast, Nat.shiftLeft_eq, Nat.pow_eq, Nat.pow_eq]
    apply Nat.div_eq_of_eq_mul_left (by positivity)
    calc 2 * F.units code * 10 ^ F.scale = 2 * F.units code * (5 * 2) ^ F.scale := rfl
      _ = F.units code * 5 ^ F.scale * (10 ^ 0 * 2 ^ (F.scale + 1)) := by
          rw [mul_pow, pow_succ]
          ring
  rw [magnitude, whole, value, zpow_neg, zpow_natCast,
    show (10 : ℚ) = 5 * 2 by norm_num, mul_pow]
  push_cast
  field_simp

/-- The grid is coarse for the code: the code is less than a step, or the grid before it
is coarser than the first half of the interval. -/
def Coarse (F : Format) (b : Nat) (e : Int) : Prop :=
  F.value (b + 1) < 10 ^ e ∨ F.value (b + 1) - F.middle b < 10 ^ (e + 1)

/-- **The search ends with a chosen decimal on a coarse grid.**  It starts so far above
the last grid that it comes there at last. -/
theorem search_spec (steps : Nat) (enough : e + F.scale = steps) (coarse : F.Coarse b e) :
    F.Chosen b (F.search (b + 1) steps e) ∧
      F.Coarse b (F.search (b + 1) steps e).exponent := by
  induction steps generalizing e with
  | zero =>
      obtain rfl : e = -F.scale := by omega
      exact ⟨chosen_of_eq (point_last F (b + 1)), coarse⟩
  | succ steps ih =>
      rw [search]
      split
      · rename_i found
        exact ⟨ownedPoint_chosen found, coarse⟩
      · rename_i none
        refine ih (by omega) (.inr ?_)
        rw [Int.sub_add_cancel]
        exact lt_of_ownedPoint_none none

/-- The search starts above the code. -/
theorem lt_leadingExponent (F : Format) (code : Nat) :
    F.value code < 10 ^ F.leadingExponent code := by
  rw [leadingExponent]
  generalize F.places code = places
  have digits := lt_pow_digitCount ((F.units code * 10 ^ places) >>> F.scale)
  rw [Nat.shiftRight_eq_div_pow, Nat.div_lt_iff_lt_mul (by positivity)] at digits
  rw [Nat.pow_eq, Nat.shiftRight_eq_div_pow]
  generalize digitCount (F.units code * 10 ^ places / 2 ^ F.scale) = count at digits ⊢
  rw [zpow_sub₀ (by norm_num), zpow_natCast, zpow_natCast, value,
    div_lt_div_iff₀ (by positivity) (by positivity)]
  exact_mod_cast digits

/-- The search starts above the last grid. -/
theorem scale_lt_leadingExponent (F : Format) (b : Nat) :
    -(F.scale : Int) < F.leadingExponent (b + 1) := by
  have above := F.lt_leadingExponent (b + 1)
  have one : 1 ≤ F.units (b + 1) := by
    have positive : F.units 0 < F.units (b + 1) := F.units_strictMono (Nat.succ_pos b)
    rwa [units_zero] at positive
  have unit : (1 : ℚ) / 2 ^ F.scale ≤ F.value (b + 1) :=
    div_le_div_of_nonneg_right (by exact_mod_cast one) (by positivity)
  have fine : (10 : ℚ) ^ (-(F.scale : Int)) ≤ 1 / 2 ^ F.scale := by
    rw [zpow_neg, zpow_natCast, one_div]
    exact inv_anti₀ (by positivity) (pow_le_pow_left₀ (by norm_num) (by norm_num) _)
  exact (zpow_lt_zpow_iff_right₀ (by norm_num : (1 : ℚ) < 10)).1 (by linarith)

theorem shortest_spec (F : Format) (b : Nat) :
    F.Chosen b (F.shortest (b + 1)) ∧ F.Coarse b (F.shortest (b + 1)).exponent := by
  rw [shortest, if_neg (Nat.succ_ne_zero b)]
  have start := F.scale_lt_leadingExponent b
  exact search_spec _ (by omega) (.inl (F.lt_leadingExponent (b + 1)))

/-- **The printed decimal is chosen.** -/
theorem shortest_chosen (F : Format) (b : Nat) : F.Chosen b (F.shortest (b + 1)) :=
  (shortest_spec F b).1

namespace Chosen

variable {d : Decimal}

theorem magnitude_pos (chosen : F.Chosen b d) : 0 < d.magnitude :=
  lt_of_lt_of_le (middle_pos b) (chosen.rounds.before b rfl).1

theorem significand_pos (chosen : F.Chosen b d) : 0 < d.significand := by
  have positive := chosen.magnitude_pos
  rw [magnitude] at positive
  have factor := (mul_pos_iff_of_pos_right (ten_pos d.exponent)).1 positive
  exact_mod_cast factor

/-- **On a coarse grid a chosen decimal has few digits.** -/
theorem significand_lt (chosen : F.Chosen b d) (coarse : F.Coarse b d.exponent) :
    d.significand < 80 * F.hidden := by
  have step := ten_pos d.exponent
  have hidden := F.hidden_pos
  suffices bound : d.magnitude < (80 * F.hidden : Nat) * 10 ^ d.exponent by
    rw [magnitude, mul_lt_mul_iff_of_pos_right step] at bound
    exact_mod_cast bound
  rcases coarse with first | later
  · have near := chosen.near
    have enough : (2 : ℚ) ≤ (80 * F.hidden : Nat) := by exact_mod_cast (by omega)
    have scaled := mul_le_mul_of_nonneg_right enough step.le
    linarith
  · have upper := chosen.rounds.behind.1
    rw [middle_eq_sub, zpow_add_one₀ (by norm_num)] at later
    have wide : F.middle (b + 1) ≤
        (8 * F.hidden : Nat) * (F.gap b / 2 ^ (F.scale + 1)) := by
      have counts : F.upperEnd (b + 1) ≤ 8 * F.hidden * F.gap b := by
        calc F.upperEnd (b + 1) ≤ 4 * F.hidden * F.gap (b + 1) :=
              Nat.le_of_lt (upperEnd_lt_mul_gap _)
          _ ≤ 4 * F.hidden * (2 * F.gap b) := Nat.mul_le_mul_left _ (gap_succ_le b)
          _ = 8 * F.hidden * F.gap b := by ring
      rw [middle, ← mul_div_assoc]
      refine div_le_div_of_nonneg_right ?_ (by positivity)
      exact_mod_cast counts
    have positive : (0 : ℚ) < (8 * F.hidden : Nat) := by exact_mod_cast (by omega)
    have scaled : (8 * F.hidden : Nat) * (F.gap b / 2 ^ (F.scale + 1)) <
        (8 * F.hidden : Nat) * (10 ^ d.exponent * 10 : ℚ) :=
      mul_lt_mul_of_pos_left (by linarith) positive
    push_cast at *
    linarith

end Chosen

/-- **The printed decimal has few digits.** -/
theorem shortest_short (F : Format) (b : Nat) :
    (F.shortest (b + 1)).significand < 80 * F.hidden :=
  (shortest_spec F b).1.significand_lt (shortest_spec F b).2

end Format

end Retrieval
