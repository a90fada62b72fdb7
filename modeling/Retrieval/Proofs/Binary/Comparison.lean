/-
# Retrieval.Proofs.Binary.Comparison -- comparing rationals by their nearest floats

A finite float stands for a rational (`Binary.exactValue?`), and a rational has a nearest
float, which is finite as long as the rational is not too large (`Binary.IsNearest`; the
sign of a zero is left open).  Rounding keeps the order (`Format.Rounds.mono`) but not
strictly, and that is all that comparing the nearest floats can get wrong: they are in
strict order exactly when the rationals are and the floats differ
(`Binary.IsNearest.less_iff`).
-/
import Retrieval.Binary.Order
import Retrieval.Proofs.Binary.Arithmetic

namespace Retrieval

set_option autoImplicit false

namespace Format

variable {F : Format} {q r : ℚ} {a b : Nat}

/-- **Rounding keeps the order.** -/
theorem Rounds.mono (low : F.Rounds q a) (high : F.Rounds r b) (le : q ≤ r) : a ≤ b := by
  rcases le.eq_or_lt with rfl | less
  · exact (low.unique high).le
  · by_contra swapped
    obtain ⟨c, rfl⟩ : ∃ c, a = c + 1 := ⟨a - 1, by omega⟩
    have between := F.middle_strictMono.monotone (show b ≤ c by omega)
    linarith [(low.before c rfl).1, high.behind.1]

end Format

namespace Binary

variable {F : Format} {x y : Binary F} {q r : ℚ}

/-! ## Equal numbers -/

/-- Equal numbers are the same, or they are the two zeros. -/
theorem equal_iff (x y : Binary F) :
    equal x y = true ↔ x ≠ .nan ∧ x = y ∨ x = zero false ∧ y = zero true ∨
      x = zero true ∧ y = zero false := by
  cases x with
  | nan => simp [equal, numericKey, zero]
  | number s a ha =>
      cases y with
      | nan => simp [equal, numericKey, zero]
      | number t b hb =>
          cases s <;> cases t
          all_goals simp [equal, numericKey, zero, signed]

theorem equal_symm (same : equal x y = true) : equal y x = true := by
  rcases (equal_iff x y).1 same with ⟨number, rfl⟩ | zeros | zeros
  · exact same
  · exact (equal_iff y x).2 (.inr (.inr zeros.symm))
  · exact (equal_iff y x).2 (.inr (.inl zeros.symm))

/-! ## Nearest floats -/

/-- The rational that a finite float stands for. -/
def exactValue? : Binary F → Option ℚ
  | .nan => none
  | .number s a _ => if a = F.infinity then none else some (if s then -F.value a else F.value a)

/-- The float is finite and no other is nearer to a rational.  The sign of a zero is not
looked at. -/
def IsNearest (x : Binary F) (q : ℚ) : Prop :=
  ∃ s code, x.HasCode s code ∧ F.Rounds |q| code ∧ (0 < code → (s = true ↔ q < 0))

/-- A finite float is the nearest to what it stands for. -/
theorem isNearest_of_exactValue? (exact : x.exactValue? = some q) : x.IsNearest q := by
  cases x with
  | nan => cases exact
  | number s a bounded =>
      rw [exactValue?] at exact
      split at exact
      · cases exact
      · rename_i finite
        have below : a < F.infinity := by omega
        have magnitude : |q| = F.value a := by
          cases exact
          cases s <;> simp [abs_of_nonneg (F.value_nonneg a)]
        refine ⟨s, a, ⟨below, bounded, rfl⟩, magnitude ▸ Format.rounds_value a, fun some => ?_⟩
        have positive := F.value_pos some
        cases exact
        cases s <;> simp [positive, positive.le]

theorem exactValue?_of_hasCode {s : Bool} {code : Nat} (has : x.HasCode s code) :
    x.exactValue? = some (if s then -F.value code else F.value code) := by
  obtain ⟨finite, bounded, rfl⟩ := has
  exact if_neg (Nat.ne_of_lt finite)

/-- The key of a float with the nearest code to a magnitude, for the numeric order. -/
def keyOf (q : ℚ) (code : Nat) : Int := signed (q < 0) code

theorem keyOf_mono {a b : Nat} (low : F.Rounds |q| a) (high : F.Rounds |r| b) (le : q ≤ r) :
    keyOf q a ≤ keyOf r b := by
  unfold keyOf signed
  by_cases negative : r < 0
  · have swapped : b ≤ a := by
      refine high.mono low ?_
      rw [abs_of_neg negative, abs_of_neg (lt_of_le_of_lt le negative)]
      exact neg_le_neg le
    simp only [lt_of_le_of_lt le negative, negative, decide_true, if_true]
    omega
  · by_cases below : q < 0
    · simp only [below, negative, decide_true, decide_false, if_true, Bool.false_eq_true,
        if_false]
      omega
    · have kept : a ≤ b := by
        refine low.mono high ?_
        rwa [abs_of_nonneg (not_lt.1 below), abs_of_nonneg (not_lt.1 negative)]
      simp only [below, negative, decide_false, Bool.false_eq_true, if_false]
      omega

namespace IsNearest

theorem numericKey_eq (near : x.IsNearest q) :
    ∃ code : Nat, F.Rounds |q| code ∧ x.numericKey = some (keyOf q code) := by
  obtain ⟨s, code, ⟨-, bounded, rfl⟩, rounds, sign⟩ := near
  refine ⟨code, rounds, ?_⟩
  rw [numericKey, keyOf]
  rcases Nat.eq_zero_or_pos code with rfl | some
  · cases s <;> simp [signed]
  · simp only [signed, sign some, decide_eq_true_eq]

/-- A float with that key is the nearest. -/
theorem of_numericKey (finite : x.isFinite = true) {code : Nat} (rounds : F.Rounds |q| code)
    (key : x.numericKey = some (keyOf q code)) : x.IsNearest q := by
  cases x with
  | nan => cases finite
  | number s a bounded =>
      have same : signed s a = keyOf q code := Option.some.inj key
      have codes : a = code := by
        rw [keyOf, signed, signed] at same
        split at same <;> split at same <;> omega
      subst codes
      refine ⟨s, a, ⟨by simpa [isFinite] using finite, bounded, rfl⟩, rounds, fun some => ?_⟩
      by_cases below : q < 0
      · cases s
        · simp only [keyOf, signed, below, decide_true, Bool.false_eq_true, if_false,
            if_true] at same
          omega
        · simp [below]
      · cases s
        · simp [below]
        · simp only [keyOf, signed, below, decide_false, Bool.false_eq_true, if_false,
            if_true] at same
          omega

theorem isFinite (near : x.IsNearest q) : x.isFinite = true := by
  obtain ⟨s, code, ⟨finite, bounded, rfl⟩, -⟩ := near
  exact decide_eq_true finite

/-- **Floats are in strict order exactly when what they are nearest to is, and the floats
are not equal.** -/
theorem less_iff (left : x.IsNearest q) (right : y.IsNearest r) :
    less x y = true ↔ q < r ∧ ¬ equal x y = true := by
  obtain ⟨a, roundsA, keyA⟩ := left.numericKey_eq
  obtain ⟨b, roundsB, keyB⟩ := right.numericKey_eq
  simp only [less, equal, keyA, keyB, decide_eq_true_eq]
  constructor
  · intro strict
    refine ⟨not_le.1 fun swapped => ?_, Int.ne_of_lt strict⟩
    have kept := keyOf_mono roundsB roundsA swapped
    omega
  · rintro ⟨strict, different⟩
    exact lt_of_le_of_ne (keyOf_mono roundsA roundsB strict.le) different

/-- Floats are in order exactly when what they are nearest to is, or the floats are
equal. -/
theorem lessOrEqual_iff (left : x.IsNearest q) (right : y.IsNearest r) :
    lessOrEqual x y = true ↔ q ≤ r ∨ equal x y = true := by
  rw [lessOrEqual, Bool.or_eq_true, left.less_iff right]
  constructor
  · rintro (⟨strict, -⟩ | same)
    · exact .inl strict.le
    · exact .inr same
  · rintro (le | same)
    · by_cases same : equal x y = true
      · exact .inr same
      · refine .inl ⟨lt_of_le_of_ne le ?_, same⟩
        rintro rfl
        obtain ⟨a, roundsA, keyA⟩ := left.numericKey_eq
        obtain ⟨b, roundsB, keyB⟩ := right.numericKey_eq
        cases roundsA.unique roundsB
        exact same (by simp [equal, keyA, keyB])
    · exact .inr same

/-- The nearest floats to two rationals are equal exactly when one float is nearest to
both. -/
theorem equal_iff_exists (left : x.IsNearest q) (right : y.IsNearest r) :
    equal x y = true ↔ ∃ z : Binary F, z.IsNearest q ∧ z.IsNearest r := by
  obtain ⟨a, roundsA, keyA⟩ := left.numericKey_eq
  obtain ⟨b, roundsB, keyB⟩ := right.numericKey_eq
  simp only [equal, keyA, keyB, decide_eq_true_eq]
  constructor
  · intro same
    exact ⟨x, left, of_numericKey left.isFinite roundsB (same ▸ keyA)⟩
  · rintro ⟨z, nearQ, nearR⟩
    obtain ⟨c, roundsC, keyC⟩ := nearQ.numericKey_eq
    obtain ⟨d, roundsD, keyD⟩ := nearR.numericKey_eq
    cases roundsA.unique roundsC
    cases roundsB.unique roundsD
    exact Option.some.inj (keyC.symm.trans keyD)

end IsNearest

theorem eq_zero_of_exactValue? {s : Bool} (exact : (zero s : Binary F).exactValue? = some q) :
    q = 0 := by
  rw [zero, exactValue?] at exact
  split at exact
  · cases exact
  · cases exact
    simp

/-- Floats that are equal stand for the same. -/
theorem exactValue?_unique (left : x.exactValue? = some q) (right : y.exactValue? = some r)
    (same : equal x y = true) : q = r := by
  rcases (equal_iff x y).1 same with ⟨-, rfl⟩ | ⟨rfl, rfl⟩ | ⟨rfl, rfl⟩
  · exact Option.some.inj (left.symm.trans right)
  · exact (eq_zero_of_exactValue? left).trans (eq_zero_of_exactValue? right).symm
  · exact (eq_zero_of_exactValue? left).trans (eq_zero_of_exactValue? right).symm

/-! ## Whole numbers -/

section

variable (fine : 0 < F.fractionBits) (some : 0 < F.exponentBits) {n : Int}
include fine some

theorem ofInt_rounds (fits : F.Fits |(n : ℚ)|) :
    ∃ code, (ofInt n : Binary F).HasCode (n < 0) code ∧ F.Rounds |(n : ℚ)| code := by
  have magnitude : ((n.natAbs : ℚ) / (1 : Nat)) = |(n : ℚ)| := by
    rw [Nat.cast_one, div_one, Nat.cast_natAbs, Int.cast_abs]
  have rounded := ofRatio_rounds fine some (decide (n < 0)) Nat.one_pos (magnitude.symm ▸ fits)
  rwa [magnitude] at rounded

/-- A whole number that is not too large is rounded to the nearest float. -/
theorem ofInt_isNearest (fits : F.Fits |(n : ℚ)|) : (ofInt n : Binary F).IsNearest n := by
  obtain ⟨code, has, rounds⟩ := ofInt_rounds fine some fits
  exact ⟨_, code, has, rounds, fun _ => by simp⟩

/-- A whole number with a short significand is a float. -/
theorem exactValue?_ofInt (short : n.natAbs < 2 * F.hidden) (fits : F.Fits |(n : ℚ)|) :
    (ofInt n : Binary F).exactValue? = Option.some (n : ℚ) := by
  obtain ⟨code, has, rounds⟩ := ofInt_rounds fine some fits
  obtain ⟨same, value⟩ := Format.exists_value_eq short
  have magnitude : F.value same = |(n : ℚ)| := by
    rw [value, Nat.cast_natAbs, Int.cast_abs]
  rw [← magnitude] at rounds
  rw [exactValue?_of_hasCode has, rounds.unique (Format.rounds_value same), magnitude]
  by_cases below : n < 0
  · have negative : (n : ℚ) < 0 := by exact_mod_cast below
    simp [below, abs_of_neg negative]
  · have positive : (0 : ℚ) ≤ n := by exact_mod_cast not_lt.1 below
    simp [below, abs_of_nonneg positive]

end

end Binary

end Retrieval
