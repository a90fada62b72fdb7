/-
# Retrieval.Proofs.Binary.Error -- how far an operation is from the exact result

Rounding moves a magnitude by a small part of it, or by half a unit where the floats are
evenly spaced (`Format.slack`).  This is said once for any real magnitude between the
midpoints beside a code (`Format.abs_value_sub_le`), and so it holds for roots as for
rationals.

`Binary.StandsFor` is the real number that a finite float is, `Binary.Approximates` that a
float is off a real number by the slack of it at most.  As long as the exact results are
not too large, sums, products, quotients and roots approximate them (`StandsFor.add`,
`StandsFor.mul`, `StandsFor.div`, `StandsFor.sqrt`).
-/
import Mathlib.Analysis.Real.Sqrt
import Retrieval.Proofs.Binary.Root

namespace Retrieval

set_option autoImplicit false

namespace Format

variable {F : Format} {code : Nat} {t : ℝ}

variable (F) in
/-- As far as rounding may move a magnitude. -/
noncomputable def slack (t : ℝ) : ℝ := max (t / (2 * F.hidden)) (1 / 2 ^ (F.scale + 1))

/-- Half a step is within the slack of what lies behind it. -/
theorem half_step_le_slack (behind : (F.value code : ℝ) ≤ t) :
    (F.step code : ℝ) / 2 ≤ F.slack t := by
  have hidden : (0 : ℝ) < F.hidden := by exact_mod_cast F.hidden_pos
  by_cases even : code < F.hidden
  · refine le_trans (le_of_eq ?_) (le_max_right _ _)
    rw [step, gap, Nat.div_eq_of_lt even, pow_succ]
    push_cast
    ring
  · refine le_trans ?_ (le_max_left _ _)
    have counts : (F.gap code * F.hidden : ℝ) ≤ F.units code := by
      exact_mod_cast gap_mul_hidden_le (not_lt.1 even)
    have steps : (F.step code : ℝ) * F.hidden ≤ F.value code := by
      rw [step, value]
      push_cast
      rw [div_mul_eq_mul_div]
      gcongr
    rw [div_le_div_iff₀ two_pos (by positivity)]
    linarith

/-- **A code is within the slack of what lies between the midpoints beside it.** -/
theorem abs_value_sub_le (nonneg : 0 ≤ t) (before : ∀ b, code = b + 1 → (F.middle b : ℝ) ≤ t)
    (behind : t ≤ F.middle code) : |(F.value code : ℝ) - t| ≤ F.slack t := by
  rcases le_or_gt (F.value code : ℝ) t with low | high
  · have middle : (F.middle code : ℝ) = F.value code + F.step code / 2 := by
      exact_mod_cast congrArg (Rat.cast : ℚ → ℝ) (F.middle_eq_step code)
    have half := half_step_le_slack low
    rw [abs_of_nonpos (by linarith)]
    linarith
  · obtain ⟨b, rfl⟩ : ∃ b, code = b + 1 := by
      refine ⟨code - 1, (Nat.succ_pred_eq_of_pos (Nat.pos_of_ne_zero ?_)).symm⟩
      rintro rfl
      rw [value_zero, Rat.cast_zero] at high
      linarith
    have middle : (F.middle b : ℝ) = F.value b + F.step b / 2 := by
      exact_mod_cast congrArg (Rat.cast : ℚ → ℝ) (F.middle_eq_step b)
    have value : (F.value (b + 1) : ℝ) = F.value b + F.step b := by
      exact_mod_cast congrArg (Rat.cast : ℚ → ℝ) (F.value_succ b)
    have step : (0 : ℝ) < F.step b := by exact_mod_cast F.step_pos b
    have lower := before b rfl
    have behind' : (F.value b : ℝ) ≤ t := by linarith
    have half := half_step_le_slack behind'
    rw [abs_of_pos (by linarith)]
    linarith

theorem Rounds.abs_sub_le {q : ℚ} (rounds : F.Rounds q code) (nonneg : 0 ≤ q) :
    |(F.value code : ℝ) - q| ≤ F.slack q :=
  abs_value_sub_le (by exact_mod_cast nonneg)
    (fun b same => by exact_mod_cast (rounds.before b same).1) (by exact_mod_cast rounds.behind.1)

/-- The code of a root is within the slack of the root. -/
theorem RoundsRoot.abs_sub_le {q : ℚ} (root : F.RoundsRoot q code) :
    |(F.value code : ℝ) - √q| ≤ F.slack √q := by
  refine abs_value_sub_le (Real.sqrt_nonneg _) (fun b same => ?_) ?_
  · refine Real.le_sqrt_of_sq_le ?_
    exact_mod_cast root.before b same
  · refine Real.sqrt_le_iff.2 ⟨?_, ?_⟩
    · exact_mod_cast (F.middle_pos code).le
    · exact_mod_cast root.behind

/-! ### 32-bit floats -/

theorem slack_eq (t : ℝ) : single.slack t = max (t / 2 ^ 24) (1 / 2 ^ 150) := by
  have hidden : (2 * single.hidden : ℝ) = 2 ^ 24 := by
    rw [hidden_eq]
    norm_num
  have scale : single.scale + 1 = 150 := by decide
  rw [slack, hidden, scale]

theorem slack_le_add (nonneg : 0 ≤ t) : single.slack t ≤ t / 2 ^ 24 + 1 / 2 ^ 150 := by
  rw [slack_eq]
  have part : 0 ≤ t / 2 ^ 24 := by positivity
  exact max_le (by linarith [show (0 : ℝ) ≤ 1 / 2 ^ 150 by positivity]) (by linarith)

/-- A normal magnitude is moved by a part of it only. -/
theorem slack_le_of_normal (normal : 1 / 2 ^ 126 ≤ t) : single.slack t ≤ t / 2 ^ 24 := by
  rw [slack_eq]
  refine max_le le_rfl ?_
  rw [le_div_iff₀ (by positivity)]
  refine le_trans (le_of_eq ?_) normal
  norm_num

/-- A magnitude that is not too large is finite. -/
theorem fits_of_le {q : ℚ} (small : q ≤ 2 ^ 127) : single.Fits q := by
  have counts : 2 ^ 127 * 2 ^ (single.scale + 1) < single.upperEnd (single.infinity - 1) := by
    decide +kernel
  have counts : (2 ^ 127 * 2 ^ (single.scale + 1) : ℚ) <
      single.upperEnd (single.infinity - 1) := by exact_mod_cast counts
  refine lt_of_le_of_lt small ?_
  rw [middle, lt_div_iff₀ (by positivity)]
  exact counts

end Format

namespace Binary

/-! ## Exact results -/

section Exact

variable {F : Format} {x y : Binary F} {s t : Bool} {a b code : Nat} {m p q : ℚ}

/-- What has the nearest code to a magnitude, and a sign, is the nearest to that with the
sign. -/
theorem isNearest_of_rounds (has : x.HasCode s code) (rounds : F.Rounds m code)
    (nonneg : 0 ≤ m) : x.IsNearest (if s then -m else m) := by
  refine ⟨s, code, has, ?_, fun some => ?_⟩
  · have magnitude : |if s then -m else m| = m := by
      cases s <;> simp [abs_of_nonneg nonneg]
    rwa [magnitude]
  · have positive : 0 < m := by
      refine lt_of_le_of_ne nonneg ?_
      rintro rfl
      have zero := rounds.unique (F.value_zero ▸ F.rounds_value 0)
      omega
    cases s <;> simp [positive, positive.le]

/-- A float that stands for a rational has a sign and a code. -/
theorem exists_hasCode (exact : x.exactValue? = some p) :
    ∃ s a, x.HasCode s a ∧ p = if s then -F.value a else F.value a := by
  cases x with
  | nan => cases exact
  | number s a bounded =>
      rw [exactValue?] at exact
      split at exact
      · cases exact
      · rename_i finite
        exact ⟨s, a, ⟨lt_of_le_of_ne bounded finite, bounded, rfl⟩, (Option.some.inj exact).symm⟩

variable (fine : 0 < F.fractionBits) (some : 0 < F.exponentBits)
include fine some

/-- **A sum is the nearest to the exact sum.** -/
theorem add_isNearest (left : x.exactValue? = Option.some p) (right : y.exactValue? = Option.some q)
    (fits : F.Fits |p + q|) : (x + y).IsNearest (p + q) := by
  obtain ⟨s, a, ⟨below, bounded, rfl⟩, rfl⟩ := exists_hasCode left
  obtain ⟨t, b, ⟨below', bounded', rfl⟩, rfl⟩ := exists_hasCode right
  have counts (s : Bool) (a : Nat) : (if s then -F.value a else F.value a) =
      (signed s (F.units a) : ℚ) / 2 ^ F.scale := by
    cases s <;> simp [signed, Format.value, neg_div]
  rw [counts, counts, ← add_div] at fits ⊢
  show IsNearest (Binary.add _ _) _
  rw [Binary.add, if_neg (Nat.ne_of_lt below), if_neg (Nat.ne_of_lt below')]
  dsimp only
  rw [← Int.cast_add] at fits ⊢
  generalize signed s (F.units a) + signed t (F.units b) = sum at fits ⊢
  by_cases nothing : sum = 0
  · rw [if_pos nothing, nothing, Int.cast_zero, zero_div]
    refine ⟨_, 0, ⟨Format.infinity_pos some, _, rfl⟩, ?_, fun impossible => absurd impossible
      (Nat.lt_irrefl 0)⟩
    rw [abs_zero, ← F.value_zero]
    exact F.rounds_value 0
  · rw [if_neg nothing]
    have rounds := Format.round_rounds (F := F) fine Nat.one_pos sum.natAbs
    have magnitude : ((sum.natAbs : ℚ) / (1 : Nat) / 2 ^ F.scale) = |(sum : ℚ) / 2 ^ F.scale| := by
      rw [Nat.cast_one, div_one, Nat.cast_natAbs, Int.cast_abs, abs_div,
        abs_of_pos (show (0 : ℚ) < 2 ^ F.scale by positivity)]
    rw [magnitude] at rounds
    refine ⟨_, _, ofCode_hasCode _ (fits.lt_infinity some rounds), rounds, fun _ => ?_⟩
    rw [decide_eq_true_iff, div_lt_iff₀ (by positivity), zero_mul]
    exact Int.cast_lt_zero.symm

/-- **A product is the nearest to the exact product.** -/
theorem mul_isNearest (left : x.exactValue? = Option.some p) (right : y.exactValue? = Option.some q)
    (fits : F.Fits |p * q|) : (x * y).IsNearest (p * q) := by
  obtain ⟨s, a, has, rfl⟩ := exists_hasCode left
  obtain ⟨t, b, has', rfl⟩ := exists_hasCode right
  have nonneg := mul_nonneg (F.value_nonneg a) (F.value_nonneg b)
  have product : (if s then -F.value a else F.value a) * (if t then -F.value b else F.value b) =
      if s != t then -(F.value a * F.value b) else F.value a * F.value b := by
    cases s <;> cases t <;> simp
  rw [product] at fits ⊢
  have magnitude : |if s != t then -(F.value a * F.value b) else F.value a * F.value b| =
      F.value a * F.value b := by
    split <;> simp [abs_of_nonneg nonneg]
  rw [magnitude] at fits
  obtain ⟨code, found, rounds⟩ := mul_rounds fine some has has' fits
  exact isNearest_of_rounds found rounds nonneg

/-- **A quotient is the nearest to the exact quotient.** -/
theorem div_isNearest (left : x.exactValue? = Option.some p) (right : y.exactValue? = Option.some q)
    (nonzero : q ≠ 0) (fits : F.Fits |p / q|) : (x / y).IsNearest (p / q) := by
  obtain ⟨s, a, has, rfl⟩ := exists_hasCode left
  obtain ⟨t, b, has', rfl⟩ := exists_hasCode right
  have positive : 0 < b := by
    refine Nat.pos_of_ne_zero ?_
    rintro rfl
    simp at nonzero
  have nonneg := div_nonneg (F.value_nonneg a) (F.value_nonneg b)
  have quotient : (if s then -F.value a else F.value a) / (if t then -F.value b else F.value b) =
      if s != t then -(F.value a / F.value b) else F.value a / F.value b := by
    cases s <;> cases t <;> simp [neg_div, div_neg]
  rw [quotient] at fits ⊢
  have magnitude : |if s != t then -(F.value a / F.value b) else F.value a / F.value b| =
      F.value a / F.value b := by
    split <;> simp [abs_of_nonneg nonneg]
  rw [magnitude] at fits
  obtain ⟨code, found, rounds⟩ := div_rounds fine some has has' positive fits
  exact isNearest_of_rounds found rounds nonneg

end Exact

/-! ## Approximations -/

variable {x y : Binary32} {p q : ℝ}

/-- The real number that a finite float is. -/
def StandsFor (x : Binary32) (p : ℝ) : Prop := ∃ r : ℚ, x.exactValue? = some r ∧ (r : ℝ) = p

/-- The real number that a finite float is, and zero for all else. -/
noncomputable def real (x : Binary32) : ℝ := (x.exactValue?.getD 0 : ℚ)

theorem standsFor_real (finite : x.isFinite = true) : x.StandsFor x.real := by
  cases x with
  | nan => cases finite
  | number s a bounded =>
      have below : a < Format.single.infinity := of_decide_eq_true finite
      have exact := exactValue?_of_hasCode (x := .number s a bounded) ⟨below, bounded, rfl⟩
      exact ⟨_, exact, by rw [real, exact]; rfl⟩

/-- Whole numbers with short significands are floats. -/
theorem standsFor_ofInt {n : Int} (short : n.natAbs < 2 ^ 24) :
    (ofInt n : Binary32).StandsFor n := by
  have hidden : 2 * Format.single.hidden = 2 ^ 24 := by decide
  have magnitude : |(n : ℚ)| ≤ 2 ^ 24 := by
    rw [← Int.cast_abs, Int.abs_eq_natAbs]
    exact_mod_cast short.le
  refine ⟨_, exactValue?_ofInt (by decide) (by decide) (hidden ▸ short)
    (Format.fits_of_le (magnitude.trans (by norm_num))), by simp⟩

/-- The part by which a sum of rounded terms may be off: two roundings move it for each of its
terms, and what is too small to be rounded so is within two more. -/
noncomputable def drift (terms : Nat) : ℝ := (2 * terms + 2) / 2 ^ 24

theorem drift_pos (terms : Nat) : 0 < drift terms := by
  rw [drift]
  positivity

theorem drift_le {terms : Nat} (few : terms ≤ 2 ^ 20) : drift terms ≤ 1 / 4 := by
  have count : (terms : ℝ) ≤ 2 ^ 20 := by exact_mod_cast few
  rw [drift, div_le_iff₀ (by positivity)]
  linarith

/-- The float is off a real number by the slack of it at most. -/
def Approximates (x : Binary32) (p : ℝ) : Prop :=
  ∃ r, x.StandsFor r ∧ |r - p| ≤ Format.single.slack |p|

theorem IsNearest.approximates {r : ℚ} (near : x.IsNearest r) : x.Approximates r := by
  obtain ⟨s, code, has, rounds, sign⟩ := near
  have error := rounds.abs_sub_le (abs_nonneg r)
  rw [Rat.cast_abs] at error
  refine ⟨_, ⟨_, exactValue?_of_hasCode has, rfl⟩, le_trans (le_of_eq ?_) error⟩
  rcases Nat.eq_zero_or_pos code with rfl | some
  · simp
  · by_cases negative : r < 0
    · have below : (r : ℝ) < 0 := by exact_mod_cast negative
      rw [if_pos ((sign some).2 negative), abs_of_neg below, Rat.cast_neg, ← abs_neg]
      congr 1
      ring
    · have above : (0 : ℝ) ≤ r := by exact_mod_cast not_lt.1 negative
      rw [if_neg (mt (sign some).1 negative), abs_of_nonneg above]

namespace StandsFor

theorem real_eq (stands : x.StandsFor p) : x.real = p := by
  obtain ⟨r, exact, rfl⟩ := stands
  rw [real, exact, Option.getD_some]

theorem neg (stands : x.StandsFor p) : (-x).StandsFor (-p) := by
  obtain ⟨r, exact, rfl⟩ := stands
  obtain ⟨s, a, has, rfl⟩ := exists_hasCode exact
  refine ⟨_, exactValue?_of_hasCode has.neg, ?_⟩
  cases s <;> simp

theorem add (left : x.StandsFor p) (right : y.StandsFor q) (small : |p + q| ≤ 2 ^ 127) :
    (x + y).Approximates (p + q) := by
  obtain ⟨r, exact, rfl⟩ := left
  obtain ⟨r', exact', rfl⟩ := right
  have near := add_isNearest (by decide) (by decide) exact exact'
    (Format.fits_of_le (by exact_mod_cast small))
  exact_mod_cast near.approximates

theorem sub (left : x.StandsFor p) (right : y.StandsFor q) (small : |p - q| ≤ 2 ^ 127) :
    (x - y).Approximates (p - q) := by
  rw [sub_eq_add_neg] at small ⊢
  exact left.add right.neg small

theorem mul (left : x.StandsFor p) (right : y.StandsFor q) (small : |p * q| ≤ 2 ^ 127) :
    (x * y).Approximates (p * q) := by
  obtain ⟨r, exact, rfl⟩ := left
  obtain ⟨r', exact', rfl⟩ := right
  have near := mul_isNearest (by decide) (by decide) exact exact'
    (Format.fits_of_le (by exact_mod_cast small))
  exact_mod_cast near.approximates

theorem div (left : x.StandsFor p) (right : y.StandsFor q) (nonzero : q ≠ 0)
    (small : |p / q| ≤ 2 ^ 127) : (x / y).Approximates (p / q) := by
  obtain ⟨r, exact, rfl⟩ := left
  obtain ⟨r', exact', rfl⟩ := right
  have near := div_isNearest (by decide) (by decide) exact exact' (by exact_mod_cast nonzero)
    (Format.fits_of_le (by exact_mod_cast small))
  exact_mod_cast near.approximates

theorem sqrt (stands : x.StandsFor p) (positive : 0 < p) : x.sqrt.Approximates √p := by
  obtain ⟨r, exact, rfl⟩ := stands
  obtain ⟨s, c, ⟨finite, bounded, rfl⟩, rfl⟩ := exists_hasCode exact
  have value := Format.single.value_nonneg c
  cases s with
  | true =>
      have negative : ((-Format.single.value c : ℚ) : ℝ) ≤ 0 := by exact_mod_cast neg_nonpos.2 value
      exact absurd positive (not_lt.2 negative)
  | false =>
      have some : 0 < c := by
        refine Nat.pos_of_ne_zero ?_
        rintro rfl
        simp at positive
      obtain ⟨e, has, root⟩ := exists_sqrt bounded some finite
      refine ⟨_, ⟨_, exactValue?_of_hasCode has, rfl⟩, ?_⟩
      rw [abs_of_nonneg (Real.sqrt_nonneg _)]
      exact root.abs_sub_le

theorem isZero (stands : x.StandsFor p) (nonzero : p ≠ 0) : x.isZero = false := by
  obtain ⟨r, exact, rfl⟩ := stands
  obtain ⟨s, a, ⟨finite, bounded, rfl⟩, rfl⟩ := exists_hasCode exact
  refine decide_eq_false ?_
  rintro rfl
  simp at nonzero

end StandsFor

end Binary

end Retrieval
