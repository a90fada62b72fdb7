/-
# Retrieval.Proofs.Metric.Symmetry -- distances are symmetric

An exact product does not depend on the order of its factors, and nor do the cases that are
no numbers.  So multiplication commutes bit for bit, whatever the operands are
(`Binary.mul_comm`).  Subtraction does not: a difference that is turned round has the same
magnitude, but its sign may stay or change, since of the two zeros only `-0.0 - 0.0` is
negative (`Binary.SameMagnitude.sub_comm`).  Its square has no memory of the sign
(`Binary.SameMagnitude.mul_self_eq`).

Both embeddings are gone through in the order of their components, so all sums run over the
same terms, and each of the three distances is symmetric (`Metric.distance_comm`).
-/
import Retrieval.Metric

namespace Retrieval

set_option autoImplicit false

namespace Binary

variable {F : Format} {x y : Binary F}

/-! ## Products -/

/-- **Multiplication commutes.** -/
theorem mul_comm (x y : Binary F) : x * y = y * x := by
  show mul x y = mul y x
  cases x with
  | nan => cases y <;> rfl
  | number s a ha =>
      cases y with
      | nan => rfl
      | number t b hb =>
          have sign : (s != t) = (t != s) := bne_comm
          simp only [mul, sign, Nat.mul_comm (F.units a), or_comm (a := a = _)]

/-! ## Differences -/

/-- Both are `nan`, or they are equal but for their signs. -/
inductive SameMagnitude : Binary F → Binary F → Prop
  | nan : SameMagnitude .nan .nan
  | number (s t : Bool) {a : Nat} (bounded : a ≤ F.infinity) :
      SameMagnitude (.number s a bounded) (.number t a bounded)

namespace SameMagnitude

/-- **A difference that is turned round keeps its magnitude.** -/
theorem sub_comm (x y : Binary F) : SameMagnitude (x - y) (y - x) := by
  show SameMagnitude (add x (neg y)) (add y (neg x))
  cases x with
  | nan => cases y <;> exact .nan
  | number s a ha =>
      cases y with
      | nan => exact .nan
      | number t b hb =>
          simp only [neg, add]
          by_cases largeA : a = F.infinity
          · subst largeA
            by_cases largeB : b = F.infinity
            · subst largeB
              by_cases same : s = t
              · subst same
                simp only [true_and, ne_eq, Bool.eq_not_self, not_false_eq_true, if_true]
                exact .nan
              · have opposite : s = !t := by
                  cases s <;> cases t <;> simp_all
                subst opposite
                simp only [ne_eq, not_true_eq_false, and_false, if_false, if_true, Bool.not_not]
                exact .number _ _ ha
            · simp only [largeB, false_and, if_true, if_false]
              exact .number _ _ ha
          · by_cases largeB : b = F.infinity
            · simp only [largeA, largeB, false_and, if_true, if_false]
              exact .number _ _ _
            · have turned : signed t (F.units b) + signed (!s) (F.units a) =
                  -(signed s (F.units a) + signed (!t) (F.units b)) := by
                cases s <;> cases t
                all_goals
                  simp only [signed, Bool.not_true, Bool.not_false, if_true, Bool.false_eq_true,
                    if_false]
                  omega
              simp only [largeA, largeB, if_false]
              rw [turned, Int.natAbs_neg]
              by_cases exact : signed s (F.units a) + signed (!t) (F.units b) = 0
              · rw [if_pos exact, if_pos (Int.neg_eq_zero.2 exact)]
                exact .number _ _ _
              · rw [if_neg exact, if_neg (mt Int.neg_eq_zero.1 exact)]
                exact .number _ _ _

/-- A square does not depend on the sign. -/
theorem mul_self_eq (same : SameMagnitude x y) : x * x = y * y := by
  cases same with
  | nan => rfl
  | number s t bounded =>
      show mul _ _ = mul _ _
      rw [mul, mul, bne_self_eq_false, bne_self_eq_false]

end SameMagnitude

end Binary

namespace Embedding

theorem dot_comm (a b : Embedding) : dot a b = dot b a := by
  rw [dot, dot, List.zipWith_comm]
  simp only [Binary.mul_comm]

theorem euclidean_comm (a b : Embedding) : euclidean a b = euclidean b a := by
  have square (x y : Binary32) : (y - x) * (y - x) = (x - y) * (x - y) :=
    (Binary.SameMagnitude.sub_comm y x).mul_self_eq
  rw [euclidean, euclidean, List.zipWith_comm]
  simp only [square]

/-- The test for a magnitude of zero looks at both, and their product commutes. -/
theorem cosine_comm (a b : Embedding) : cosine a b = cosine b a := by
  unfold cosine
  dsimp only
  rw [Bool.or_comm, dot_comm a b, Binary.mul_comm (magnitude a)]

end Embedding

/-- **Every distance is symmetric, bit for bit.**  The components may be any floats:
subnormal, infinite or `nan`. -/
theorem Metric.distance_comm (metric : Metric) (a b : Embedding) :
    metric.distance a b = metric.distance b a := by
  cases metric with
  | cosine => exact Embedding.cosine_comm a b
  | euclidean => exact Embedding.euclidean_comm a b
  | dot => exact congrArg Neg.neg (Embedding.dot_comm a b)

end Retrieval
