/-
# Retrieval.Proofs.Binary.Quotient -- quotients next to one, and one minus them

A quotient of two magnitudes rounds to one only when they are equal, and stays on its side
of one otherwise: no two floats are as near to each other as one is to the midpoints beside
it (`Format.Rounds.quotient`).  One minus a number is not negative exactly when the number
is at most one; it is at most two also for the float next below minus one, where the
difference is a tie and rounds to two (`Binary.one_sub_within_iff`).

Together they say of one minus a quotient when it lies between zero and two
(`Binary.one_sub_div_within_iff`) and when it is zero (`Binary.one_sub_eq_zero_iff`,
`Binary.div_eq_one_iff`).
-/
import Retrieval.Proofs.Binary.Comparison
import Retrieval.Proofs.Binary.Zero

namespace Retrieval

set_option autoImplicit false

namespace Format

/-! ## Next to one and to two -/

/-- The code of one, and that of two. -/
def one : Nat := 0x3f800000

def two : Nat := 0x40000000

theorem one_le_infinity : one ≤ single.infinity := by decide

theorem value_of_units {F : Format} {code n : Nat} (units : F.units code = n * 2 ^ F.scale) :
    F.value code = n := by
  rw [value, units]
  push_cast
  field_simp

theorem step_of_gap {F : Format} {code n : Nat} (gap : F.gap code * 2 ^ n = 2 ^ F.scale) :
    F.step code = 1 / 2 ^ n := by
  have gap : (F.gap code * 2 ^ n : ℚ) = 2 ^ F.scale := by exact_mod_cast gap
  rw [step, ← gap]
  have positive : (0 : ℚ) < F.gap code := by exact_mod_cast F.gap_pos code
  field_simp

theorem value_one : single.value one = 1 := by
  exact_mod_cast value_of_units (F := single) (n := 1) (by decide +kernel)

theorem value_two : single.value two = 2 := by
  exact_mod_cast value_of_units (F := single) (n := 2) (by decide +kernel)

theorem middle_before_one : single.middle (one - 1) = 1 - 1 / 2 ^ 25 := by
  have step : single.step (one - 1) = 1 / 2 ^ 24 := step_of_gap (by decide +kernel)
  have value := single.value_succ (one - 1)
  rw [show one - 1 + 1 = one from rfl, value_one, step] at value
  rw [middle_eq_step, step]
  linarith

theorem middle_one : single.middle one = 1 + 1 / 2 ^ 24 := by
  have step : single.step one = 1 / 2 ^ 23 := step_of_gap (by decide +kernel)
  rw [middle_eq_step, value_one, step]
  norm_num

theorem value_next_one : single.value (one + 1) = 1 + 1 / 2 ^ 23 := by
  have step : single.step one = 1 / 2 ^ 23 := step_of_gap (by decide +kernel)
  rw [value_succ, value_one, step]

theorem middle_next_one : single.middle (one + 1) = 1 + 3 / 2 ^ 24 := by
  have step : single.step (one + 1) = 1 / 2 ^ 23 := step_of_gap (by decide +kernel)
  rw [middle_eq_step, value_next_one, step]
  norm_num

theorem middle_two : single.middle two = 2 + 1 / 2 ^ 23 := by
  have step : single.step two = 1 / 2 ^ 22 := step_of_gap (by decide +kernel)
  rw [middle_eq_step, value_two, step]
  norm_num

/-! ## Quotients -/

variable {a b c : Nat}

/-- **A quotient of magnitudes stays on its side of one.** -/
theorem Rounds.quotient (rounds : single.Rounds (single.value a / single.value b) c)
    (positive : 0 < b) : (a < b → c < one) ∧ (a = b → c = one) ∧ (b < a → one < c) := by
  have divisor := single.value_pos positive
  have short : 2 * single.hidden = 2 ^ 24 := by decide
  refine ⟨fun less => ?_, fun same => ?_, fun more => ?_⟩
  · obtain ⟨M, few, steps⟩ := single.exists_steps a
    have count : (M : ℚ) + 1 ≤ 2 ^ 24 := by exact_mod_cast short ▸ few
    have next : single.value (a + 1) ≤ single.value b := single.value_strictMono.monotone less
    have step := single.step_pos a
    rw [value_succ, steps] at next
    have below : single.value a / single.value b < single.middle (one - 1) := by
      rw [middle_before_one, div_lt_iff₀ divisor, steps]
      nlinarith
    exact Nat.lt_of_le_of_lt (rounds.le_of_lt_middle below) (by decide)
  · subst same
    rw [div_self divisor.ne', ← value_one] at rounds
    exact rounds.unique (single.rounds_value one)
  · obtain ⟨M, few, steps⟩ := single.exists_steps b
    have count : (M : ℚ) + 1 ≤ 2 ^ 24 := by exact_mod_cast short ▸ few
    have next : single.value (b + 1) ≤ single.value a := single.value_strictMono.monotone more
    have step := single.step_pos b
    rw [value_succ] at next
    have above : single.middle one < single.value a / single.value b := by
      rw [middle_one, lt_div_iff₀ divisor]
      rw [steps] at next ⊢
      nlinarith
    exact rounds.lt_of_middle_lt above

/-- A count of at most one rounds to at most one. -/
theorem round_le_one {n : Nat} (small : n ≤ single.units one) : single.round n 1 ≤ one := by
  refine (round_rounds (by decide) Nat.one_pos n).mono (single.rounds_value one) ?_
  have counts : (n : ℚ) ≤ single.units one := by exact_mod_cast small
  rw [Nat.cast_one, div_one, value]
  exact div_le_div_of_nonneg_right counts (by positivity)

/-- The code next to one is the last that a magnitude below the midpoint behind it rounds
to; the midpoint itself goes to the even code. -/
theorem Rounds.le_next_one_iff {q : ℚ} (rounds : single.Rounds q c) :
    c ≤ one + 1 ↔ q < 1 + 3 / 2 ^ 24 := by
  rw [← middle_next_one]
  refine ⟨fun small => ?_, fun less => rounds.le_of_lt_middle less⟩
  by_contra notLess
  rcases (not_lt.1 notLess).lt_or_eq with above | touch
  · exact absurd (rounds.lt_of_middle_lt above) (Nat.not_lt.2 small)
  · rcases Nat.lt_or_eq_of_le small with below | rfl
    · have before := single.middle_strictMono below
      linarith [rounds.behind.1]
    · exact absurd (rounds.behind.2 touch.symm) (by decide)

end Format

namespace Binary

/-! ## Quotients without a rounding -/

section

variable {F : Format} {x y : Binary F} {s t : Bool} {a : Nat} {h h' : F.infinity ≤ F.infinity}

theorem infinite_div_infinite :
    (.number s F.infinity h / .number t F.infinity h' : Binary F) = .nan := by
  show div _ _ = _
  rw [div, if_pos rfl, if_pos rfl]

theorem infinite_div {b : Nat} (right : y.HasCode t b) :
    .number s F.infinity h / y = infinite (s != t) := by
  obtain ⟨finite, bounded, rfl⟩ := right
  show div _ _ = _
  rw [div, if_pos rfl, if_neg (Nat.ne_of_lt finite)]

theorem div_infinite (left : x.HasCode s a) : x / .number t F.infinity h = zero (s != t) := by
  obtain ⟨finite, bounded, rfl⟩ := left
  show div _ _ = _
  rw [div, if_neg (Nat.ne_of_lt finite), if_pos rfl]

theorem div_zero (left : x.HasCode s a) (right : y.HasCode t 0) :
    x / y = if a = 0 then .nan else infinite (s != t) := by
  obtain ⟨finite, bounded, rfl⟩ := left
  obtain ⟨finite', bounded', rfl⟩ := right
  show div _ _ = _
  rw [div, if_neg (Nat.ne_of_lt finite), if_neg (Nat.ne_of_lt finite'), if_pos rfl]

end

/-! ## One minus a number -/

variable {t : Bool} {c : Nat} {bounded : c ≤ Format.single.infinity}

/-- The float lies in an interval. -/
def Within {F : Format} (low high x : Binary F) : Prop :=
  lessOrEqual low x = true ∧ lessOrEqual x high = true

instance {F : Format} (low high x : Binary F) : Decidable (Within low high x) :=
  inferInstanceAs (Decidable (_ ∧ _))

theorem ofInt_one : (ofInt 1 : Binary32) = .number false Format.one Format.one_le_infinity := by
  decide +kernel

theorem ofInt_two : (ofInt 2 : Binary32) = .number false Format.two (by decide) := by
  decide +kernel

theorem within_number_iff : Within (zero false) (ofInt 2) (.number t c bounded : Binary32) ↔
    if t then c = 0 else c ≤ Format.two := by
  rw [ofInt_two]
  cases t <;> simp [Within, lessOrEqual, less, equal, numericKey, zero, signed] <;> omega

theorem within_ofCode_iff {code : Nat} : Within (zero false) (ofInt 2) (ofCode t code : Binary32) ↔
    if t then code = 0 else code ≤ Format.two := by
  have large : Format.two < Format.single.infinity := by decide
  rw [ofCode, within_number_iff]
  cases t <;> simp only [Bool.false_eq_true, if_true, if_false] <;> omega

/-- One minus infinity. -/
theorem one_sub_infinite {bounded : Format.single.infinity ≤ Format.single.infinity} :
    (ofInt 1 : Binary32) - .number t Format.single.infinity bounded =
      .number (!t) Format.single.infinity bounded := by
  rw [ofInt_one]
  show add (.number false Format.one Format.one_le_infinity)
    (.number (!t) Format.single.infinity bounded) = _
  rw [add, if_neg (by decide), if_pos rfl]

/-- One minus a finite number is rounded from the exact difference. -/
theorem one_sub_eq (finite : c ≠ Format.single.infinity) {sum : Int}
    (isSum : sum = Format.single.units Format.one + signed (!t) (Format.single.units c)) :
    (ofInt 1 : Binary32) - .number t c bounded =
      if sum = 0 then zero false else ofCode (sum < 0) (Format.single.round sum.natAbs 1) := by
  rw [ofInt_one, isSum]
  show add (.number false Format.one Format.one_le_infinity) (.number (!t) c bounded) = _
  rw [add, if_neg (by decide), if_neg finite]
  rfl

/-- One plus a finite magnitude rounds to at most two if that is at most next to one. -/
theorem one_add_rounds {sum : Nat} (isSum : sum = Format.single.units Format.one +
    Format.single.units c) : Format.single.round sum 1 ≤ Format.two ↔ c ≤ Format.one + 1 := by
  have rounds := Format.round_rounds (F := .single) (by decide) Nat.one_pos sum
  have exact : ((sum : ℚ) / (1 : Nat) / 2 ^ Format.single.scale) = 1 + Format.single.value c := by
    rw [isSum, ← Format.value_one, Format.value, Format.value]
    push_cast
    ring
  rw [exact] at rounds
  constructor
  · intro small
    by_contra large
    have next : Format.single.value (Format.one + 1 + 1) ≤ Format.single.value c :=
      Format.single.value_strictMono.monotone (by omega)
    have step := Format.single.step_pos (Format.one + 1)
    rw [Format.value_succ, Format.value_next_one] at next
    have past : Format.single.middle Format.two < 1 + Format.single.value c := by
      rw [Format.middle_two]
      linarith
    exact absurd (rounds.lt_of_middle_lt past) (Nat.not_lt.2 small)
  · intro small
    have most : Format.single.value c ≤ 1 + 1 / 2 ^ 23 := by
      rw [← Format.value_next_one]
      exact Format.single.value_strictMono.monotone small
    -- two is even, so the tie goes to it
    have two : Format.single.Rounds (Format.single.middle Format.two) Format.two :=
      ⟨fun b same => ⟨(Format.single.middle_strictMono (by omega)).le,
        fun _ => by decide⟩, le_refl _, fun _ => by decide⟩
    refine rounds.mono two ?_
    rw [Format.middle_two]
    linarith

/-- **One minus a number lies between zero and two** when the number is at most one and at
least the float next below minus one. -/
theorem one_sub_within_iff :
    Within (zero false) (ofInt 2) ((ofInt 1 : Binary32) - .number t c bounded) ↔
      if t then c ≤ Format.one + 1 else c ≤ Format.one := by
  have unitsMono := Format.single.units_strictMono
  rcases Nat.lt_or_eq_of_le bounded with finite | rfl
  · cases t
    · rw [one_sub_eq (Nat.ne_of_lt finite) rfl]
      simp only [Bool.not_false, signed, if_true, Bool.false_eq_true, if_false]
      rcases Nat.lt_trichotomy c Format.one with less | rfl | more
      · have units := unitsMono less
        rw [if_neg (by omega), decide_eq_false (by omega), within_ofCode_iff]
        have small := Format.round_le_one (n :=
          (Format.single.units Format.one + -(Format.single.units c : Int)).natAbs) (by omega)
        simp only [Bool.false_eq_true, if_false]
        exact iff_of_true (Nat.le_trans small (by decide)) (Nat.le_of_lt less)
      · rw [if_pos (by omega)]
        exact iff_of_true (by decide +kernel) (Nat.le_refl _)
      · have units := unitsMono more
        rw [if_neg (by omega), decide_eq_true (by omega), within_ofCode_iff]
        have inexact := Format.round_one_pos (F := .single)
          (n := (Format.single.units Format.one + -(Format.single.units c : Int)).natAbs) (by omega)
        simp only [if_true]
        omega
    · have positive : 0 < Format.single.units Format.one := by decide +kernel
      rw [one_sub_eq (Nat.ne_of_lt finite) rfl]
      simp only [Bool.not_true, signed, if_true, Bool.false_eq_true, if_false]
      rw [if_neg (by omega), decide_eq_false (by omega), within_ofCode_iff]
      simp only [Bool.false_eq_true, if_false]
      exact one_add_rounds (by omega)
  · have past : ¬ Format.single.infinity ≤ Format.one + 1 ∧ Format.single.infinity ≠ 0 ∧
        ¬ Format.single.infinity ≤ Format.one ∧ ¬ Format.single.infinity ≤ Format.two := by decide
    rw [one_sub_infinite, within_number_iff]
    cases t <;> simp [past]

/-- **One minus a number is zero only for one.** -/
theorem one_sub_eq_zero_iff {x : Binary32} :
    (ofInt 1 : Binary32) - x = zero false ↔ x = ofInt 1 := by
  cases x with
  | nan => rw [ofInt_one]; exact iff_of_false nofun nofun
  | number t c bounded =>
      rw [ofInt_one, number.injEq, ← ofInt_one]
      rcases Nat.lt_or_eq_of_le bounded with finite | rfl
      · rw [one_sub_eq (Nat.ne_of_lt finite) rfl]
        have positive : 0 < Format.single.units Format.one := by decide +kernel
        split
        · rename_i exact
          refine iff_of_true rfl ?_
          cases t
          · simp only [Bool.not_false, signed, if_true] at exact
            exact ⟨rfl, Format.single.units_strictMono.injective (by omega)⟩
          · simp only [Bool.not_true, signed, Bool.false_eq_true, if_false] at exact
            omega
        · rename_i inexact
          rw [ofCode_eq_zero_iff (by decide)]
          refine iff_of_false (fun vanishes => ?_) ?_
          · exact absurd vanishes.2 (Nat.ne_of_gt (Format.round_one_pos (Int.natAbs_pos.2 inexact)))
          · rintro ⟨rfl, rfl⟩
            simp [signed] at inexact
      · rw [one_sub_infinite, number_eq_zero_iff]
        have past : Format.single.infinity ≠ 0 ∧ Format.single.infinity ≠ Format.one := by decide
        simp [past]

/-! ## One minus a quotient -/

theorem one_sub_ofCode_within_iff {code : Nat} :
    Within (zero false) (ofInt 2) ((ofInt 1 : Binary32) - ofCode t code) ↔
      if t then code ≤ Format.one + 1 else code ≤ Format.one := by
  have large : Format.one + 1 < Format.single.infinity := by decide
  rw [ofCode, one_sub_within_iff]
  cases t <;> simp only [Bool.false_eq_true, if_true, if_false] <;> omega

theorem exactValue?_infinite : (infinite t : Binary32).exactValue? = none := by
  rw [infinite, exactValue?, if_pos rfl]

/-- A number is not greater than a magnitude, and minus the number exceeds it by less than
one and a half steps of the floats behind one. -/
def Respects (x p : Binary32) : Prop :=
  ∃ d, x.exactValue? = some d ∧
    ∀ e, p.exactValue? = some e → d ≤ e ∧ -d < (1 + 3 / 2 ^ 24) * e

/-- One minus a quotient of finite numbers. -/
theorem one_sub_div_within_of_finite {x p : Binary32} {s : Bool} {d f : Nat}
    (number : x.HasCode s d) (magnitude : p.HasCode false f) (some : 0 < f) :
    Within (zero false) (ofInt 2) ((ofInt 1 : Binary32) - x / p) ↔ Respects x p := by
  obtain ⟨c, quotient, rounds⟩ := exists_div_eq_ofCode (by decide) number magnitude some
  have exact := exactValue?_of_hasCode number
  have divisor : p.exactValue? = Option.some (Format.single.value f) :=
    exactValue?_of_hasCode magnitude
  have nonneg := Format.single.value_nonneg d
  have positive := Format.single.value_pos some
  simp only [Respects, exact, divisor, Option.some.injEq, exists_eq_left', forall_eq']
  rw [quotient, Bool.bne_false, one_sub_ofCode_within_iff]
  cases s with
  | false =>
      obtain ⟨less, same, more⟩ := rounds.quotient some
      have order : Format.single.value d ≤ Format.single.value f ↔ d ≤ f :=
        Format.single.value_strictMono.le_iff_le
      have other : -Format.single.value d < (1 + 3 / 2 ^ 24) * Format.single.value f := by
        nlinarith
      simp only [Bool.false_eq_true, if_false, order, other, and_true]
      rcases Nat.lt_trichotomy d f with below | rfl | above
      · exact iff_of_true (less below).le below.le
      · exact iff_of_true (same rfl).le le_rfl
      · exact iff_of_false (Nat.not_le.2 (more above)) (Nat.not_le.2 above)
  | true =>
      have other : -Format.single.value d ≤ Format.single.value f := by linarith
      simp only [if_true, other, true_and, neg_neg]
      rw [rounds.le_next_one_iff, div_lt_iff₀ positive]

/-- **One minus a quotient by a magnitude lies between zero and two** exactly when the
dividend respects the magnitude. -/
theorem one_sub_div_within_iff {x : Binary32} {f : Nat} {bounded : f ≤ Format.single.infinity}
    (number : (ofInt 1 : Binary32) - x / .number false f bounded ≠ .nan) :
    Within (zero false) (ofInt 2) ((ofInt 1 : Binary32) - x / .number false f bounded) ↔
      Respects x (.number false f bounded) := by
  have undefined : (ofInt 1 : Binary32) - .nan = .nan := by rw [ofInt_one]; rfl
  have past : Format.single.infinity ≠ 0 ∧ ¬ Format.single.infinity ≤ Format.two := by decide
  -- an infinite quotient leaves the interval
  have leaves (t : Bool) : ¬ Within (zero false) (ofInt 2) ((ofInt 1 : Binary32) - infinite t) := by
    rw [infinite, one_sub_infinite, within_number_iff]
    cases t <;> simp [past]
  cases x with
  | nan => exact absurd undefined number
  | number s d bounded' =>
      rcases Nat.lt_or_eq_of_le bounded' with small | rfl
      · have has : (Binary.number s d bounded' : Binary32).HasCode s d := ⟨small, _, rfl⟩
        rcases Nat.lt_or_eq_of_le bounded with finite | rfl
        · have magnitude : (Binary.number false f bounded : Binary32).HasCode false f :=
            ⟨finite, _, rfl⟩
          rcases Nat.eq_zero_or_pos f with rfl | some
          · have divided := div_zero has magnitude
            rw [Bool.bne_false] at divided
            split at divided
            · rw [divided] at number
              exact absurd undefined number
            · rw [divided]
              refine iff_of_false (leaves s) ?_
              rintro ⟨e, exact, least⟩
              obtain ⟨low, high⟩ := least _ (exactValue?_of_hasCode magnitude)
              simp only [Bool.false_eq_true, if_false, Format.value_zero, mul_zero] at low high
              linarith
          · exact one_sub_div_within_of_finite has magnitude some
        · rw [div_infinite has]
          refine iff_of_true (by cases s <;> decide +kernel) ?_
          refine ⟨_, exactValue?_of_hasCode has, fun e exact => ?_⟩
          cases exactValue?_infinite.symm.trans exact
      · rcases Nat.lt_or_eq_of_le bounded with finite | rfl
        · rw [infinite_div ⟨finite, _, rfl⟩]
          refine iff_of_false (leaves _) ?_
          rintro ⟨e, exact, -⟩
          cases exactValue?_infinite.symm.trans exact
        · rw [infinite_div_infinite] at number
          exact absurd undefined number

/-- **A quotient of magnitudes is one only when they are equal.** -/
theorem div_eq_one_iff {f : Nat} {bounded' : f ≤ Format.single.infinity} (some : 0 < c)
    (finite : c < Format.single.infinity) :
    (.number false c bounded / .number false f bounded' : Binary32) = ofInt 1 ↔ f = c := by
  have past : Format.one ≠ 0 ∧ Format.one < Format.single.infinity := by decide
  have left : (Binary.number false c bounded : Binary32).HasCode false c := ⟨finite, _, rfl⟩
  rw [ofInt_one]
  rcases Nat.lt_or_eq_of_le bounded' with small | rfl
  · have right : (Binary.number false f bounded' : Binary32).HasCode false f := ⟨small, _, rfl⟩
    rcases Nat.eq_zero_or_pos f with rfl | positive
    · rw [div_zero left right, if_neg (Nat.ne_of_gt some), infinite, number.injEq]
      omega
    · obtain ⟨q, quotient, rounds⟩ := exists_div_eq_ofCode (by decide) left right positive
      obtain ⟨less, same, more⟩ := rounds.quotient positive
      rw [quotient, Bool.bne_false, ofCode, number.injEq, and_iff_right rfl]
      rcases Nat.lt_trichotomy c f with below | rfl | above
      · have code := less below
        omega
      · have code := same rfl
        omega
      · have code := more above
        omega
  · rw [div_infinite left, zero, number.injEq]
    omega

end Binary

end Retrieval
