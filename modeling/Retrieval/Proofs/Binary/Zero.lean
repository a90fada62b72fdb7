/-
# Retrieval.Proofs.Binary.Zero -- where negative zeros come from

An exact sum of zero is negative only when both terms are negative zeros, and an inexact
sum is no zero at all, since a whole count of units never rounds to zero
(`Binary.add_eq_negativeZero_iff`).  So a running sum, which starts from negative zero,
is one exactly as long as every term is (`sum_eq_negativeZero_iff`).

A square is never negative zero, and nor is one minus anything.  Hence of the distances
only the negated inner product can be (`Metric.eq_dot_of_distance`).
-/
import Retrieval.Metric
import Retrieval.Proofs.Binary.Arithmetic

namespace Retrieval

set_option autoImplicit false

namespace Format

variable {F : Format}

/-- A whole count of units never rounds to zero. -/
theorem round_one_pos {n : Nat} (positive : 0 < n) : 0 < F.round n 1 := by
  rw [round_eq, Nat.div_one, Nat.one_mul]
  rcases Nat.eq_zero_or_pos (Nat.log2 n - F.fractionBits) with first | later
  · rw [first, Nat.zero_mul, Nat.zero_add, Nat.pow_zero, nearest, Nat.div_one, Nat.mod_one]
    simpa using positive
  · exact Nat.add_pos_left (Nat.mul_pos later F.hidden_pos) _

theorem units_eq_zero_iff {code : Nat} : F.units code = 0 ↔ code = 0 := by
  constructor
  · intro nothing
    exact F.units_strictMono.injective (nothing.trans F.units_zero.symm)
  · rintro rfl
    exact F.units_zero

end Format

namespace Binary

variable {F : Format} {x y : Binary F}

theorem number_eq_zero_iff {s t : Bool} {code : Nat} {bounded : code ≤ F.infinity} :
    (number s code bounded : Binary F) = zero t ↔ s = t ∧ code = 0 := by
  simp [zero]

theorem ofCode_eq_zero_iff (some : 0 < F.exponentBits) {s t : Bool} {code : Nat} :
    (ofCode s code : Binary F) = zero t ↔ s = t ∧ code = 0 := by
  have positive := Format.infinity_pos some
  rw [ofCode, number_eq_zero_iff, Nat.min_eq_zero_iff]
  simp [Nat.ne_of_gt positive]

/-- **A sum is negative zero only when both of its terms are.** -/
theorem add_eq_negativeZero_iff (some : 0 < F.exponentBits) :
    x + y = zero true ↔ x = zero true ∧ y = zero true := by
  have positive := Format.infinity_pos some
  show add x y = zero true ↔ _
  cases x with
  | nan => simp [add, zero]
  | number s a ha =>
      cases y with
      | nan => simp [add, zero]
      | number t b hb =>
          rw [add]
          by_cases largeA : a = F.infinity
          · have noZero : a ≠ 0 := by omega
            by_cases undefined : b = F.infinity ∧ s ≠ t
            · rw [if_pos largeA, if_pos undefined]
              simp [zero, noZero]
            · rw [if_pos largeA, if_neg undefined]
              simp [number_eq_zero_iff, noZero]
          · by_cases largeB : b = F.infinity
            · have noZero : b ≠ 0 := by omega
              rw [if_neg largeA, if_pos largeB]
              simp [number_eq_zero_iff, noZero]
            · rw [if_neg largeA, if_neg largeB]
              dsimp only
              by_cases exact : signed s (F.units a) + signed t (F.units b) = 0
              · rw [if_pos exact]
                -- opposite numbers give positive zero, so both are zeros or there is none
                cases s <;> cases t
                all_goals simp only [signed, if_true, Bool.false_eq_true, if_false] at exact
                all_goals simp [zero]
                have noUnits : F.units a = 0 ∧ F.units b = 0 := by omega
                exact noUnits.imp Format.units_eq_zero_iff.1 Format.units_eq_zero_iff.1
              · rw [if_neg exact, ofCode_eq_zero_iff some]
                have inexact : F.round _ 1 ≠ 0 :=
                  Nat.ne_of_gt (Format.round_one_pos (Int.natAbs_pos.2 exact))
                simp only [inexact, and_false, false_iff, number_eq_zero_iff]
                rintro ⟨⟨rfl, rfl⟩, rfl, rfl⟩
                simp [signed] at exact

/-- **A running sum is negative zero as long as every term is.** -/
theorem sum_eq_negativeZero_iff (some : 0 < F.exponentBits) (terms : List (Binary F)) :
    sum terms = zero true ↔ ∀ x ∈ terms, x = zero true := by
  have run (start : Binary F) :
      terms.foldl (· + ·) start = zero true ↔ start = zero true ∧ ∀ x ∈ terms, x = zero true := by
    induction terms generalizing start with
    | nil => simp
    | cons x terms ih =>
        rw [List.foldl_cons, ih, add_eq_negativeZero_iff some, List.forall_mem_cons, and_assoc]
  rw [sum, run]
  simp

/-- A square is never negative zero. -/
theorem mul_self_ne_negativeZero (some : 0 < F.exponentBits) : x * x ≠ zero true := by
  show mul x x ≠ _
  cases x with
  | nan => simp [mul, zero]
  | number s a ha =>
      rw [mul]
      split
      · split
        · simp [zero]
        · simp [infinite, zero]
      · simp [ofCode_eq_zero_iff some]

theorem sqrt_eq_negativeZero_iff (some : 0 < F.exponentBits) :
    sqrt x = zero true ↔ x = zero true := by
  cases x with
  | nan => simp [sqrt, zero]
  | number s a ha =>
      rw [sqrt, number_eq_zero_iff]
      by_cases nothing : a = 0
      · rw [if_pos nothing, number_eq_zero_iff]
      · rw [if_neg nothing]
        cases s with
        | true => simp [zero, nothing]
        | false =>
            simp only [Bool.false_eq_true, if_false, false_and, iff_false]
            split
            · simp [number_eq_zero_iff]
            · simp [ofCode_eq_zero_iff some]

end Binary

namespace Embedding

variable {a b : Embedding}

/-- A length in space is not negative zero, since it is the root of a sum of squares. -/
theorem euclidean_ne_negativeZero (same : a.length = b.length) (nonempty : a ≠ []) :
    euclidean a b ≠ .zero true := by
  rw [euclidean, Ne, Binary.sqrt_eq_negativeZero_iff (by decide),
    Binary.sum_eq_negativeZero_iff (by decide)]
  intro all
  obtain ⟨x, a, rfl⟩ := List.exists_cons_of_ne_nil nonempty
  obtain ⟨y, b, rfl⟩ : ∃ y c, b = y :: c := by
    cases b with
    | nil => simp at same
    | cons y c => exact ⟨y, c, rfl⟩
  exact Binary.mul_self_ne_negativeZero (by decide) (all _ (List.mem_cons_self ..))

/-- One minus anything is not negative zero. -/
theorem cosine_ne_negativeZero (a b : Embedding) : cosine a b ≠ .zero true := by
  have one : (Binary.ofInt 1 : Binary32) ≠ .zero true := by decide +kernel
  unfold cosine
  dsimp only
  split
  · exact one
  · intro vanishes
    exact one ((Binary.add_eq_negativeZero_iff (by decide)).1 vanishes).1

end Embedding

/-- **Of the distances only the negated inner product can be negative zero.** -/
theorem Metric.eq_dot_of_distance {metric : Metric} {a b : Embedding} (same : a.length = b.length)
    (nonempty : a ≠ []) (vanishes : metric.distance a b = .zero true) : metric = .dot := by
  cases metric with
  | cosine => exact absurd vanishes (Embedding.cosine_ne_negativeZero a b)
  | euclidean => exact absurd vanishes (Embedding.euclidean_ne_negativeZero same nonempty)
  | dot => rfl

end Retrieval
