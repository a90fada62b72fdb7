/-
# Retrieval.Proofs.Metric.Coincidence -- embeddings at distance zero in space

A square rounds to zero when the magnitude is at most `2 ^ -75` (`Binary.mul_self_eq_zero_iff`).
Sums and roots of numbers without a sign do not add to that: a sum is positive zero when all
of its terms are, a root when the number is.  So two embeddings are at distance zero exactly
when no two of their components differ by more (`Embedding.euclidean_eq_zero_iff`), which
also embeddings do that are not equal.
-/
import Retrieval.Proofs.Binary.Root

namespace Retrieval

set_option autoImplicit false

namespace Format

variable {F : Format} {q : ℚ} {code : Nat}

theorem middle_zero : F.middle 0 = 1 / 2 ^ (F.scale + 1) := by
  have ends : F.upperEnd 0 = 1 := by
    rw [upperEnd_eq', units_zero, gap, Nat.zero_div]
    rfl
  rw [middle, ends, Nat.cast_one]

/-- **Half a unit and less rounds to zero,** and nothing else does. -/
theorem Rounds.eq_zero_iff (rounds : F.Rounds q code) : code = 0 ↔ q ≤ 1 / 2 ^ (F.scale + 1) := by
  rw [← middle_zero]
  constructor
  · rintro rfl
    exact rounds.behind.1
  · intro small
    exact rounds.unique ⟨fun b same => absurd same (Nat.succ_ne_zero b).symm, small, fun _ => rfl⟩

end Format

namespace Binary

/-! ## Squares -/

/-- A finite float of magnitude `2 ^ -75` at most. -/
def IsTiny (x : Binary32) : Prop := ∃ r : ℚ, x.exactValue? = some r ∧ |r| ≤ 1 / 2 ^ 75

/-- **When a square is zero.** -/
theorem mul_self_eq_zero_iff (x : Binary32) : x * x = zero false ↔ x.IsTiny := by
  cases x with
  | nan => exact iff_of_false nofun (by rintro ⟨r, exact, -⟩; cases exact)
  | number s a bounded =>
      rcases Nat.lt_or_eq_of_le bounded with finite | rfl
      · have has : (number s a bounded : Binary32).HasCode s a := ⟨finite, bounded, rfl⟩
        obtain ⟨code, product, rounds⟩ := exists_mul_eq_ofCode (by decide) has has
        have magnitude : |if s then -Format.single.value a else Format.single.value a| =
            Format.single.value a := by
          cases s <;> simp [abs_of_nonneg (Format.single.value_nonneg a)]
        have tiny : (number s a bounded : Binary32).IsTiny ↔
            Format.single.value a ≤ 1 / 2 ^ 75 := by
          rw [IsTiny, exactValue?_of_hasCode has]
          simp only [Option.some.injEq, exists_eq_left', magnitude]
        have square : (1 / 2 ^ (Format.single.scale + 1) : ℚ) = (1 / 2 ^ 75) * (1 / 2 ^ 75) := by
          have scale : Format.single.scale + 1 = 75 + 75 := by decide
          rw [scale, pow_add, one_div_mul_one_div]
        rw [product, bne_self_eq_false, ofCode_eq_zero_iff (by decide), and_iff_right rfl,
          rounds.eq_zero_iff, square, tiny,
          mul_self_le_mul_self_iff (Format.single.value_nonneg a) (by positivity)]
      · rw [mul_self_of_infinite]
        refine iff_of_false (by decide) ?_
        rintro ⟨r, exact, -⟩
        rw [exactValue?, if_pos rfl] at exact
        cases exact

instance (x : Binary32) : Decidable x.IsTiny :=
  decidable_of_iff _ (mul_self_eq_zero_iff x)

/-! ## Sums and roots -/

variable {F : Format} {x y : Binary F}

/-- A sum of a zero of either sign or a number without a sign, and another without one. -/
theorem number_add_eq_zero_iff (some : 0 < F.exponentBits) {s : Bool} {a b : Nat}
    {ha : a ≤ F.infinity} {hb : b ≤ F.infinity} (unsigned : s = true → a = 0) :
    (number s a ha : Binary F) + number false b hb = zero false ↔ a = 0 ∧ b = 0 := by
  have positive := Format.infinity_pos some
  show Binary.add _ _ = _ ↔ _
  rw [Binary.add]
  by_cases largeA : a = F.infinity
  · have sign : s = false := Bool.eq_false_iff.2 fun negative => by
      have := unsigned negative
      omega
    rw [if_pos largeA, if_neg (fun opposite => opposite.2 sign), number_eq_zero_iff]
    omega
  · rw [if_neg largeA]
    by_cases largeB : b = F.infinity
    · rw [if_pos largeB, number_eq_zero_iff]
      omega
    · rw [if_neg largeB]
      dsimp only
      have exact : signed s (F.units a) + signed false (F.units b) =
          (F.units a + F.units b : Nat) := by
        cases s with
        | false => simp [signed]
        | true => simp [signed, unsigned rfl]
      rw [exact]
      have both : ((F.units a + F.units b : Nat) : Int) = 0 ↔ a = 0 ∧ b = 0 := by
        rw [Nat.cast_eq_zero, Nat.add_eq_zero_iff, F.units_eq_zero_iff, F.units_eq_zero_iff]
      by_cases nothing : ((F.units a + F.units b : Nat) : Int) = 0
      · rw [if_pos nothing, Bool.and_false]
        exact iff_of_true rfl (both.1 nothing)
      · rw [if_neg nothing, ofCode_eq_zero_iff some]
        refine iff_of_false (fun rounded => ?_) (mt both.2 nothing)
        exact absurd rounded.2 (Nat.ne_of_gt (Format.round_one_pos (Int.natAbs_pos.2 nothing)))

theorem IsUnsigned.add_eq_zero_iff (some : 0 < F.exponentBits) (left : x.IsUnsigned)
    (right : y.IsUnsigned) : x + y = zero false ↔ x = zero false ∧ y = zero false := by
  obtain ⟨a, ha, rfl⟩ := left
  obtain ⟨b, hb, rfl⟩ := right
  rw [number_add_eq_zero_iff some fun negative => absurd negative Bool.false_ne_true]
  simp [number_eq_zero_iff]

theorem IsUnsigned.negativeZero_add_eq_zero_iff (some : 0 < F.exponentBits)
    (unsigned : y.IsUnsigned) : zero true + y = zero false ↔ y = zero false := by
  obtain ⟨b, hb, rfl⟩ := unsigned
  rw [zero, number_add_eq_zero_iff some fun _ => rfl]
  simp [number_eq_zero_iff]

/-- **A sum without signs is zero when all of its terms are.** -/
theorem sum_eq_zero_iff (some : 0 < F.exponentBits) {terms : List (Binary F)}
    (nonempty : terms ≠ []) (unsigned : ∀ x ∈ terms, x.IsUnsigned) :
    sum terms = zero false ↔ ∀ x ∈ terms, x = zero false := by
  have run {start : Binary F} {terms : List (Binary F)} (begun : start.IsUnsigned)
      (unsigned : ∀ x ∈ terms, x.IsUnsigned) : terms.foldl (· + ·) start = zero false ↔
        start = zero false ∧ ∀ x ∈ terms, x = zero false := by
    induction terms generalizing start with
    | nil => simp
    | cons x terms ih =>
        obtain ⟨first, rest⟩ := List.forall_mem_cons.1 unsigned
        rw [List.foldl_cons, ih (begun.add first) rest, begun.add_eq_zero_iff some first,
          List.forall_mem_cons, and_assoc]
  obtain ⟨x, terms, rfl⟩ := List.exists_cons_of_ne_nil nonempty
  obtain ⟨first, rest⟩ := List.forall_mem_cons.1 unsigned
  rw [sum, List.foldl_cons, run (first.negativeZero_add some) rest,
    first.negativeZero_add_eq_zero_iff some, List.forall_mem_cons]

/-- **A root is zero when the number is.** -/
theorem IsUnsigned.sqrt_eq_zero_iff {x : Binary32} (unsigned : x.IsUnsigned) :
    x.sqrt = zero false ↔ x = zero false := by
  obtain ⟨a, bounded, rfl⟩ := unsigned
  rcases Nat.eq_zero_or_pos a with rfl | some
  · exact iff_of_true rfl rfl
  · rw [number_eq_zero_iff]
    refine iff_of_false (fun vanishes => ?_) (fun zero => absurd zero.2 (Nat.ne_of_gt some))
    rcases Nat.lt_or_eq_of_le bounded with finite | rfl
    · obtain ⟨e, ⟨-, within, root⟩, rounds⟩ := exists_sqrt bounded some finite
      rw [root, number_eq_zero_iff] at vanishes
      obtain ⟨-, rfl⟩ := vanishes
      -- the least positive float is far above the square of half of it
      have least := Format.single.middle_lt_value 0
      have greater := Format.single.value_strictMono.monotone (show 0 + 1 ≤ a from some)
      have small : Format.single.middle 0 ≤ 1 := by
        rw [Format.middle_zero]
        exact div_le_one_of_le₀ (one_le_pow₀ one_le_two) (by positivity)
      have squares : Format.single.middle 0 ^ 2 ≤ Format.single.middle 0 :=
        pow_le_of_le_one (Format.middle_pos 0).le small two_ne_zero
      linarith [rounds.behind]
    · rw [show (number false Format.single.infinity bounded : Binary32) = infinite false from rfl,
        sqrt_infinite (by decide)] at vanishes
      exact absurd vanishes (by decide)

end Binary

namespace Embedding

open Binary

variable {a b : Embedding}

/-- No two components differ by more than `2 ^ -75`, as the differences are rounded. -/
def Coincide (a b : Embedding) : Prop := List.Forall₂ (fun x y => (x - y).IsTiny) a b

theorem coincide_cons {x y : Binary32} :
    Coincide (x :: a) (y :: b) ↔ (x - y).IsTiny ∧ Coincide a b :=
  List.forall₂_cons

instance decidableCoincide : ∀ a b : Embedding, Decidable (Coincide a b)
  | [], [] => .isTrue .nil
  | [], _ :: _ | _ :: _, [] => .isFalse nofun
  | x :: a, y :: b =>
      have := decidableCoincide a b
      decidable_of_iff ((x - y).IsTiny ∧ Coincide a b) coincide_cons.symm

theorem squares_eq_zero_iff (same : a.length = b.length) :
    (∀ x ∈ squares a b, x = zero false) ↔ Coincide a b := by
  induction a generalizing b with
  | nil =>
      obtain rfl : b = [] := List.length_eq_zero_iff.1 same.symm
      exact iff_of_true nofun .nil
  | cons x a ih =>
      cases b with
      | nil => cases same
      | cons y b =>
          rw [squares, List.zipWith_cons_cons, List.forall_mem_cons, mul_self_eq_zero_iff,
            ← squares, ih (Nat.succ.inj same), coincide_cons]

/-- **Embeddings are at distance zero in space exactly when they coincide.** -/
theorem euclidean_eq_zero_iff (same : a.length = b.length) (nonempty : a ≠ [])
    (finiteA : ∀ x ∈ a, x.isFinite = true) (finiteB : ∀ y ∈ b, y.isFinite = true) :
    euclidean a b = zero false ↔ Coincide a b := by
  have unsigned := squares_isUnsigned finiteA finiteB
  have some := squares_ne_nil same nonempty
  rw [euclidean_eq, (sum_isUnsigned (by decide) some unsigned).sqrt_eq_zero_iff,
    sum_eq_zero_iff (by decide) some unsigned, squares_eq_zero_iff same]

end Embedding

end Retrieval
