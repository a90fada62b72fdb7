/-
# Retrieval.Proofs.Metric.Cosine -- how far roundings move the cosine

The inner product, the two magnitudes, their product and the quotient are rounded one by one,
and nothing holds the roundings together.  The distance is in range exactly when the rounded
inner product is not greater than the rounded product of the magnitudes, and minus it exceeds
that by less than the last rounding takes back (`Embedding.cosine_within_iff`).

An embedding is at zero from itself exactly when its sum of squares is the rounded square of
some float (`Embedding.cosine_self_iff`): then the rounded root squares to it, and otherwise
no float does.  Two is no such square, so already the embedding with two ones is at a
negative distance from itself (`Metric.cosine_leaves_range`).
-/
import Retrieval.Proofs.Binary.Quotient
import Retrieval.Proofs.Binary.Root

namespace Retrieval

set_option autoImplicit false

namespace Binary

variable {F : Format} {x y : Binary F}

/-- **A square root has no sign** if it is a number other than zero. -/
theorem sqrt_isUnsigned (number : x.sqrt ≠ .nan) (some : x.sqrt.isZero = false) :
    x.sqrt.IsUnsigned := by
  cases x with
  | nan => exact absurd rfl number
  | number s a bounded =>
      rw [sqrt] at number some ⊢
      rcases Nat.eq_zero_or_pos a with rfl | positive
      · cases some
      · rw [if_neg (Nat.ne_of_gt positive)] at number some ⊢
        cases s with
        | true => exact absurd rfl number
        | false =>
            rw [if_neg Bool.false_ne_true]
            split
            · exact ⟨a, bounded, rfl⟩
            · exact isUnsigned_ofCode _

/-- A product of numbers without a sign has none, unless a zero meets infinity. -/
theorem IsUnsigned.mul (left : x.IsUnsigned) (right : y.IsUnsigned) (some : x.isZero = false)
    (some' : y.isZero = false) : (x * y).IsUnsigned := by
  obtain ⟨a, ha, rfl⟩ := left
  obtain ⟨b, hb, rfl⟩ := right
  have positive : ¬ (a = 0 ∨ b = 0) :=
    not_or.2 ⟨of_decide_eq_false some, of_decide_eq_false some'⟩
  show (Binary.mul (.number false a ha) (.number false b hb)).IsUnsigned
  rw [Binary.mul, bne_self_eq_false, if_neg positive]
  split
  · exact isUnsigned_infinite
  · exact isUnsigned_ofCode _

theorem mul_nan (x : Binary F) : x * .nan = .nan := by
  cases x <;> rfl

theorem div_nan (x : Binary F) : x / .nan = .nan := by
  cases x <;> rfl

end Binary

namespace Embedding

variable {a b : Embedding}

/-- The sum of the squares of the components. -/
def squaredMagnitude (a : Embedding) : Binary32 := Binary.sum (a.map fun x => x * x)

theorem magnitude_eq (a : Embedding) : magnitude a = a.squaredMagnitude.sqrt := rfl

/-- The inner product of an embedding with itself. -/
theorem dot_self (a : Embedding) : dot a a = a.squaredMagnitude := by
  rw [dot, List.zipWith_self, squaredMagnitude]

theorem cosine_of_isZero (nothing : (magnitude a).isZero = true ∨ (magnitude b).isZero = true) :
    cosine a b = .ofInt 1 := by
  unfold cosine
  dsimp only
  rw [if_pos (by simpa using nothing)]

theorem cosine_of_nonzero (some : (magnitude a).isZero = false)
    (some' : (magnitude b).isZero = false) :
    cosine a b = .ofInt 1 - dot a b / (magnitude a * magnitude b) := by
  unfold cosine
  dsimp only
  rw [if_neg (by simp [some, some'])]

/-- An embedding has no magnitude, or the inner product respects the product of the
magnitudes. -/
def RespectsMagnitudes (a b : Embedding) : Prop :=
  (magnitude a).isZero = true ∨ (magnitude b).isZero = true ∨
    (dot a b).Respects (magnitude a * magnitude b)

/-- **When the distance by the angle is in range.** -/
theorem cosine_within_iff (number : cosine a b ≠ .nan) :
    Binary.Within (.zero false) (.ofInt 2) (cosine a b) ↔ RespectsMagnitudes a b := by
  by_cases nothing : (magnitude a).isZero = true ∨ (magnitude b).isZero = true
  · rw [cosine_of_isZero nothing]
    exact iff_of_true (by decide +kernel) (or_assoc.1 (.inl nothing))
  · obtain ⟨some, some'⟩ := not_or.1 nothing
    rw [Bool.not_eq_true] at some some'
    have reads : RespectsMagnitudes a b ↔ (dot a b).Respects (magnitude a * magnitude b) := by
      rw [RespectsMagnitudes, some, some']
      simp
    rw [cosine_of_nonzero some some'] at number ⊢
    rw [reads]
    have undefined : (Binary.ofInt 1 : Binary32) - dot a b / .nan = .nan := by
      rw [Binary.div_nan, Binary.ofInt_one]
      rfl
    have left : magnitude a ≠ .nan := by
      intro isNan
      rw [isNan] at number
      exact number undefined
    have right : magnitude b ≠ .nan := by
      intro isNan
      rw [isNan, Binary.mul_nan] at number
      exact number undefined
    obtain ⟨f, bounded, product⟩ := (Binary.sqrt_isUnsigned left some).mul
      (Binary.sqrt_isUnsigned right some') some some'
    rw [show magnitude a * magnitude b = _ from product] at number ⊢
    exact Binary.one_sub_div_within_iff number

/-- **When an embedding is at zero from itself.** -/
theorem cosine_self_iff (some : (magnitude a).isZero = false)
    (finite : a.squaredMagnitude.isFinite = true) :
    cosine a a = .zero false ↔ ∃ r : Binary32, r * r = a.squaredMagnitude := by
  rw [cosine_of_nonzero some some, Binary.one_sub_eq_zero_iff, dot_self,
    ← Binary.sqrt_mul_sqrt_iff]
  rw [magnitude_eq] at some ⊢
  cases isSum : a.squaredMagnitude with
  | nan =>
      rw [isSum] at finite
      cases finite
  | number s c bounded =>
      rw [isSum] at some finite
      have small : c < Format.single.infinity := of_decide_eq_true finite
      by_cases number : Binary.sqrt (.number s c bounded) = .nan
      · rw [number, Binary.mul_nan, Binary.div_nan, Binary.ofInt_one]
        exact iff_of_false nofun nofun
      · -- the sum is positive, since its root is neither zero nor undefined
        have positive : 0 < c := by
          refine Nat.pos_of_ne_zero ?_
          rintro rfl
          cases some
        obtain rfl : s = false := by
          cases s with
          | false => rfl
          | true => exact absurd (if_neg (Nat.ne_of_gt positive)) number
        obtain ⟨f, bounded', product⟩ := (Binary.sqrt_isUnsigned number some).mul
          (Binary.sqrt_isUnsigned number some) some some
        rw [product, Binary.div_eq_one_iff positive small, Binary.number.injEq,
          and_iff_right rfl]

end Embedding

namespace Metric

open Retrieval.Embedding

/-- **The distance by the angle stays in range, and is zero for an exact match,** exactly
where the roundings allow it.  A distance that is a number lies between zero and two when
the embeddings respect their magnitudes.  An embedding with a magnitude whose sum of squares
is finite is at zero from itself when that sum is the rounded square of a float. -/
theorem cosine_in_range_iff (a b : Embedding) :
    (cosine.distance a b ≠ .nan →
      (Binary.Within (.zero false) (.ofInt 2) (cosine.distance a b) ↔
        RespectsMagnitudes a b)) ∧
    ((magnitude a).isZero = false → a.squaredMagnitude.isFinite = true →
      (cosine.distance a a = .zero false ↔ ∃ r : Binary32, r * r = a.squaredMagnitude)) :=
  ⟨cosine_within_iff, cosine_self_iff⟩

/-- The distance between two vectors of length five, and that of one from itself. -/
theorem cosine_in_range_sample :
    let a : Embedding := [.ofInt 3, .ofInt 4]
    let b : Embedding := [.ofInt 4, .ofInt 3]
    cosine.distance a b ≠ .nan ∧ RespectsMagnitudes a b ∧ (magnitude a).isZero = false ∧
      a.squaredMagnitude.isFinite = true ∧ cosine.distance a a = .zero false := by
  intro a b
  obtain ⟨range, itself⟩ := cosine_in_range_iff a b
  have number : cosine.distance a b ≠ .nan := by decide +kernel
  have some : (magnitude a).isZero = false := by decide +kernel
  have finite : a.squaredMagnitude.isFinite = true := by decide +kernel
  exact ⟨number, (range number).1 (by decide +kernel), some, finite,
    (itself some finite).2 ⟨.ofInt 5, by decide +kernel⟩⟩

/-- The vector with two ones is at a negative distance from itself: the square of the root
of two is rounded to less than two. -/
theorem cosine_leaves_range :
    let a : Embedding := [.ofInt 1, .ofInt 1]
    a.Valid 2 ∧ cosine.distance a a ≠ .nan ∧ (magnitude a).isZero = false ∧
      a.squaredMagnitude.isFinite = true ∧
      ¬ Binary.Within (.zero false) (.ofInt 2) (cosine.distance a a) ∧
      cosine.distance a a ≠ .zero false := by
  intro a
  refine ⟨Embedding.fault?_eq_none_iff.1 (by decide +kernel), ?_⟩
  decide +kernel

end Metric

end Retrieval
