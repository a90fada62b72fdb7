/-
# Retrieval.Proofs.Binary.Arithmetic -- operations round the exact result

What an operation gives for finite floats is the code nearest to the exact result, as
long as that is not past the finite floats: `ofRatio_rounds` for a quotient of whole
numbers, `mul_rounds`, `div_rounds`, and `convert_rounds` for a change of the format.
A whole number with a short significand is hit exactly (`ofInt_exact`).
-/
import Retrieval.Binary.Arithmetic
import Retrieval.Proofs.Binary.Rounding

namespace Retrieval

set_option autoImplicit false

namespace Format

/-- The magnitude rounds to a finite code. -/
def Fits (F : Format) (q : ℚ) : Prop := q < F.middle (F.infinity - 1)

variable {F : Format} {q : ℚ} {code : Nat}

theorem infinity_pos (some : 0 < F.exponentBits) : 0 < F.infinity := by
  have two : 2 ^ 1 ≤ 2 ^ F.exponentBits := Nat.pow_le_pow_right (by decide) some
  rw [infinity, Nat.one_shiftLeft]
  exact Nat.mul_pos (by omega) F.hidden_pos

theorem Fits.lt_infinity (fits : F.Fits q) (some : 0 < F.exponentBits)
    (rounds : F.Rounds q code) : code < F.infinity := by
  have positive := infinity_pos some
  have bound := rounds.le_of_lt_middle fits
  omega

end Format

namespace Binary

variable {F : Format} {x y : Binary F} {s t : Bool} {a b code : Nat} {q : ℚ}

/-- The float is finite and has this sign and code. -/
def HasCode (x : Binary F) (s : Bool) (code : Nat) : Prop :=
  code < F.infinity ∧ ∃ bounded, x = .number s code bounded

theorem ofCode_hasCode (s : Bool) (finite : code < F.infinity) :
    (ofCode s code : Binary F).HasCode s code := by
  have same : min code F.infinity = code := Nat.min_eq_left (Nat.le_of_lt finite)
  refine ⟨finite, Nat.le_of_lt finite, ?_⟩
  simp only [ofCode, same]

theorem HasCode.unique (first : x.HasCode s code) (second : y.HasCode s code) : x = y := by
  obtain ⟨-, -, rfl⟩ := first
  obtain ⟨-, -, rfl⟩ := second
  rfl

theorem HasCode.neg (has : x.HasCode s code) : (-x).HasCode (!s) code := by
  obtain ⟨finite, bounded, rfl⟩ := has
  exact ⟨finite, bounded, rfl⟩

theorem HasCode.isInfinite (has : x.HasCode s code) : x.isInfinite = false := by
  obtain ⟨finite, bounded, rfl⟩ := has
  exact decide_eq_false (Nat.ne_of_lt finite)

/-- A product is rounded, to infinity where it is past the finite floats. -/
theorem exists_mul_eq_ofCode (fine : 0 < F.fractionBits) (left : x.HasCode s a)
    (right : y.HasCode t b) :
    ∃ code, x * y = ofCode (s != t) code ∧ F.Rounds (F.value a * F.value b) code := by
  obtain ⟨below, bounded, rfl⟩ := left
  obtain ⟨below', bounded', rfl⟩ := right
  have rounds := Format.round_rounds (F := F) fine (Nat.two_pow_pos F.scale)
    (F.units a * F.units b)
  have exact : ((F.units a * F.units b : Nat) / (2 ^ F.scale : Nat) / 2 ^ F.scale : ℚ) =
      F.value a * F.value b := by
    rw [Format.value, Format.value]
    push_cast
    field_simp
  rw [exact, ← Nat.one_shiftLeft] at rounds
  exact ⟨_, if_neg (by omega), rounds⟩

/-- A quotient by a number that is not zero is rounded, to infinity where it is past the
finite floats. -/
theorem exists_div_eq_ofCode (fine : 0 < F.fractionBits) (left : x.HasCode s a)
    (right : y.HasCode t b) (nonzero : 0 < b) :
    ∃ code, x / y = ofCode (s != t) code ∧ F.Rounds (F.value a / F.value b) code := by
  obtain ⟨below, bounded, rfl⟩ := left
  obtain ⟨below', bounded', rfl⟩ := right
  have positive : 0 < F.units b := F.units_zero ▸ F.units_strictMono nonzero
  have rounds := Format.round_rounds (F := F) fine positive (F.units a <<< F.scale)
  have denominator : (0 : ℚ) < F.units b := by exact_mod_cast positive
  have exact : ((F.units a <<< F.scale : Nat) / F.units b / 2 ^ F.scale : ℚ) =
      F.value a / F.value b := by
    rw [Format.value, Format.value, Nat.shiftLeft_eq]
    push_cast
    field_simp
  rw [exact] at rounds
  refine ⟨_, ?_, rounds⟩
  show div _ _ = _
  rw [div, if_neg (Nat.ne_of_lt below), if_neg (Nat.ne_of_lt below'),
    if_neg (Nat.ne_of_gt nonzero)]

section

variable (fine : 0 < F.fractionBits) (some : 0 < F.exponentBits)
include fine some

/-- **A quotient of whole numbers is rounded once.** -/
theorem ofRatio_rounds (s : Bool) {n d : Nat} (positive : 0 < d) (fits : F.Fits (n / d)) :
    ∃ code, (ofRatio s n d : Binary F).HasCode s code ∧ F.Rounds (n / d) code := by
  have rounds := Format.round_rounds (F := F) fine positive (n <<< F.scale)
  have exact : ((n <<< F.scale : Nat) / d / 2 ^ F.scale : ℚ) = n / d := by
    rw [Nat.shiftLeft_eq]
    push_cast
    field_simp
  rw [exact] at rounds
  exact ⟨_, ofCode_hasCode s (fits.lt_infinity some rounds), rounds⟩

/-- **A whole number with a short significand is a float.** -/
theorem ofInt_exact {n : Nat} (short : n < 2 * F.hidden) (fits : F.Fits n) :
    ∃ code, (ofInt n : Binary F).HasCode false code ∧ F.value code = n := by
  obtain ⟨same, exact⟩ := Format.exists_value_eq short
  have ratio : F.Fits ((n : ℚ) / (1 : Nat)) := by rwa [Nat.cast_one, div_one]
  obtain ⟨code, has, rounds⟩ := ofRatio_rounds fine some false Nat.one_pos ratio
  rw [Nat.cast_one, div_one, ← exact] at rounds
  have negative : decide ((n : Int) < 0) = false := decide_eq_false (by omega)
  refine ⟨code, ?_, ?_⟩
  · rw [ofInt, negative, Int.natAbs_natCast]
    exact has
  · rw [rounds.unique (Format.rounds_value same), exact]

/-- **A product is rounded once.** -/
theorem mul_rounds (left : x.HasCode s a) (right : y.HasCode t b)
    (fits : F.Fits (F.value a * F.value b)) :
    ∃ code, (x * y).HasCode (s != t) code ∧ F.Rounds (F.value a * F.value b) code := by
  obtain ⟨code, same, rounds⟩ := exists_mul_eq_ofCode fine left right
  exact ⟨code, same ▸ ofCode_hasCode _ (fits.lt_infinity some rounds), rounds⟩

/-- **A quotient is rounded once.** -/
theorem div_rounds (left : x.HasCode s a) (right : y.HasCode t b) (nonzero : 0 < b)
    (fits : F.Fits (F.value a / F.value b)) :
    ∃ code, (x / y).HasCode (s != t) code ∧ F.Rounds (F.value a / F.value b) code := by
  obtain ⟨code, same, rounds⟩ := exists_div_eq_ofCode fine left right nonzero
  exact ⟨code, same ▸ ofCode_hasCode _ (fits.lt_infinity some rounds), rounds⟩

end

/-- **A change of the format rounds once.** -/
theorem convert_rounds {G : Format} (fine : 0 < G.fractionBits) (has : x.HasCode s a)
    (rounds : G.Rounds (F.value a) code) (finite : code < G.infinity) :
    (x.convert G).HasCode s code := by
  obtain ⟨below, bounded, rfl⟩ := has
  have found := Format.round_rounds (F := G) fine (Nat.two_pow_pos F.scale)
    (F.units a <<< G.scale)
  have exact : ((F.units a <<< G.scale : Nat) / (2 ^ F.scale : Nat) / 2 ^ G.scale : ℚ) =
      F.value a := by
    rw [Format.value, Nat.shiftLeft_eq]
    push_cast
    field_simp
  rw [exact] at found
  have unfolded : (Binary.number s a bounded : Binary F).convert G =
      ofCode s (G.round (F.units a <<< G.scale) (2 ^ F.scale)) := by
    rw [← Nat.one_shiftLeft]
    exact if_neg (Nat.ne_of_lt below)
  rw [unfolded, found.unique rounds]
  exact ofCode_hasCode s finite

end Binary

end Retrieval
