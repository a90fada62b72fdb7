/-
# Retrieval.Proofs.Metric.InnerProduct -- how far a computed inner product is off

An inner product is computed by two roundings for each of its terms, of the term and of the
sum with it.  Each of them moves the result by a small part of the sum of all terms taken
positive, the mass (`Embedding.step_near`, and for a whole run `Embedding.foldl_near`).  So
the computed product is off the exact one by a part of the mass that grows with the number
of components only (`Embedding.dot_near`), and by the inequality of Cauchy and Schwarz
(`Embedding.mass_sq_le`) the mass is no more than the product of the lengths.
-/
import Retrieval.Metric
import Retrieval.Proofs.Binary.Error

namespace Retrieval

set_option autoImplicit false

namespace Embedding

open Binary

variable {a b : Embedding}

/-! ## Exact sums -/

/-- The exact inner product. -/
noncomputable def inner (a b : Embedding) : ℝ :=
  (List.zipWith (fun x y => x.real * y.real) a b).sum

/-- The exact sum of the terms of the inner product, all taken positive. -/
noncomputable def mass (a b : Embedding) : ℝ :=
  (List.zipWith (fun x y => |x.real * y.real|) a b).sum

theorem inner_cons (x y : Binary32) (a b : Embedding) :
    inner (x :: a) (y :: b) = x.real * y.real + inner a b := rfl

theorem mass_cons (x y : Binary32) (a b : Embedding) :
    mass (x :: a) (y :: b) = |x.real * y.real| + mass a b := rfl

theorem mass_self (a : Embedding) : mass a a = inner a a := by
  induction a with
  | nil => rfl
  | cons x a ih => rw [mass_cons, inner_cons, ih, abs_mul_self]

theorem mass_nonneg (a b : Embedding) : 0 ≤ mass a b := by
  induction a generalizing b with
  | nil => exact le_rfl
  | cons x a ih =>
      cases b with
      | nil => exact le_rfl
      | cons y b =>
          rw [mass_cons]
          exact add_nonneg (abs_nonneg _) (ih b)

theorem abs_inner_le_mass (a b : Embedding) : |inner a b| ≤ mass a b := by
  induction a generalizing b with
  | nil => simp [inner, mass]
  | cons x a ih =>
      cases b with
      | nil => simp [inner, mass]
      | cons y b =>
          rw [inner_cons, mass_cons]
          exact (abs_add_le _ _).trans (add_le_add_right (ih b) _)

theorem inner_self_nonneg (a : Embedding) : 0 ≤ inner a a := mass_self a ▸ mass_nonneg a a

/-- **The inequality of Cauchy and Schwarz.** -/
theorem mass_sq_le (same : a.length = b.length) : mass a b ^ 2 ≤ inner a a * inner b b := by
  induction a generalizing b with
  | nil =>
      obtain rfl : b = [] := List.length_eq_zero_iff.1 same.symm
      simp [mass, inner]
  | cons x a ih =>
      cases b with
      | nil => cases same
      | cons y b =>
          have rest := ih (Nat.succ.inj same)
          have left := inner_self_nonneg a
          have right := inner_self_nonneg b
          rw [mass_cons, inner_cons, inner_cons]
          have squareX := mul_self_nonneg x.real
          have squareY := mul_self_nonneg y.real
          have square : |x.real * y.real| ^ 2 = x.real * x.real * (y.real * y.real) := by
            rw [sq_abs]
            ring
          have cross : 2 * (|x.real * y.real| * mass a b) ≤
              inner a a * (y.real * y.real) + x.real * x.real * inner b b := by
            refine le_of_abs_le (abs_le_of_sq_le_sq ?_
              (add_nonneg (mul_nonneg left squareY) (mul_nonneg squareX right)))
            have products := mul_le_mul_of_nonneg_left rest (mul_nonneg squareX squareY)
            rw [mul_pow, mul_pow, square]
            nlinarith [sq_nonneg (inner a a * (y.real * y.real) - x.real * x.real * inner b b)]
          nlinarith

/-! ## Running sums -/

/-- One more term: it is rounded, and so is the sum with it. -/
theorem step_near {x y acc : Binary32} {r D P : ℝ} {k : ℕ} (finiteX : x.isFinite = true)
    (finiteY : y.isFinite = true) (stands : acc.StandsFor r) (within : |D| ≤ P)
    (error : |r - D| ≤ (2 * k + 1) / 2 ^ 24 * P + 4 * k / 2 ^ 150) (short : k < 2 ^ 20)
    (small : P + |x.real * y.real| ≤ 2 ^ 120) :
    ∃ r', (acc + x * y).StandsFor r' ∧ |D + x.real * y.real| ≤ P + |x.real * y.real| ∧
      |r' - (D + x.real * y.real)| ≤ (2 * (k + 1 : ℕ) + 1) / 2 ^ 24 * (P + |x.real * y.real|) +
        4 * (k + 1 : ℕ) / 2 ^ 150 := by
  generalize isTerm : x.real * y.real = m at small ⊢
  generalize isPart : ((2 * k + 1) / 2 ^ 24 : ℝ) = c at error
  have terms : (k : ℝ) + 1 ≤ 2 ^ 20 := by exact_mod_cast short
  have count : (0 : ℝ) ≤ k := Nat.cast_nonneg k
  have positive : 0 ≤ |m| := abs_nonneg m
  have nonneg : 0 ≤ P := le_trans (abs_nonneg D) within
  have least : 1 / 2 ^ 24 ≤ c := by rw [← isPart]; gcongr; linarith
  have most : c ≤ 1 := by rw [← isPart, div_le_one (by positivity)]; linarith
  have next : ((2 * (k + 1 : ℕ) + 1) / 2 ^ 24 : ℝ) = c + 2 / 2 ^ 24 := by
    rw [← isPart]
    push_cast
    ring
  -- the term
  obtain ⟨t, standsT, errorT⟩ := (standsFor_real finiteX).mul (standsFor_real finiteY)
    (by rw [isTerm]; linarith)
  rw [isTerm] at errorT
  replace errorT := errorT.trans (Format.slack_le_add positive)
  have partP : c * P ≤ P := mul_le_of_le_one_left nonneg most
  -- the exact sum of what is there and the term
  have total : |r + t| ≤ |D + m| + |r - D| + |t - m| := by
    have split : r + t = D + m + (r - D) + (t - m) := by ring
    rw [split]
    exact (abs_add_le _ _).trans (add_le_add_left (abs_add_le _ _) _)
  have grown : |D + m| ≤ P + |m| := (abs_add_le D m).trans (add_le_add_left within _)
  obtain ⟨r', stands', error'⟩ := stands.add standsT (by linarith)
  replace error' := error'.trans (Format.slack_le_add (abs_nonneg _))
  refine ⟨r', stands', grown, ?_⟩
  have apart : |r' - (D + m)| ≤ |r' - (r + t)| + |r - D| + |t - m| := by
    have split : r' - (D + m) = r' - (r + t) + (r - D) + (t - m) := by ring
    rw [split]
    exact (abs_add_le _ _).trans (add_le_add_left (abs_add_le _ _) _)
  have partM : 1 / 2 ^ 24 * |m| ≤ c * |m| := mul_le_mul_of_nonneg_right least positive
  rw [next]
  push_cast
  linarith

/-- Terms in a row. -/
theorem foldl_near {a b : Embedding} (same : a.length = b.length)
    (finiteA : ∀ x ∈ a, x.isFinite = true) (finiteB : ∀ y ∈ b, y.isFinite = true)
    {acc : Binary32} {r D P : ℝ} {k : ℕ} (stands : acc.StandsFor r) (within : |D| ≤ P)
    (error : |r - D| ≤ (2 * k + 1) / 2 ^ 24 * P + 4 * k / 2 ^ 150)
    (short : k + a.length ≤ 2 ^ 20) (small : P + mass a b ≤ 2 ^ 120) :
    ∃ r', ((List.zipWith (· * ·) a b).foldl (· + ·) acc).StandsFor r' ∧
      |r' - (D + inner a b)| ≤ (2 * (k + a.length : ℕ) + 1) / 2 ^ 24 * (P + mass a b) +
        4 * (k + a.length : ℕ) / 2 ^ 150 := by
  induction a generalizing b acc r D P k with
  | nil =>
      obtain rfl : b = [] := List.length_eq_zero_iff.1 same.symm
      refine ⟨r, stands, ?_⟩
      simpa [inner, mass] using error
  | cons x a ih =>
      cases b with
      | nil => cases same
      | cons y b =>
          obtain ⟨firstA, restA⟩ := List.forall_mem_cons.1 finiteA
          obtain ⟨firstB, restB⟩ := List.forall_mem_cons.1 finiteB
          rw [List.length_cons] at short
          rw [mass_cons, ← add_assoc] at small
          have here : P + |x.real * y.real| ≤ 2 ^ 120 :=
            le_trans (le_add_of_nonneg_right (mass_nonneg a b)) small
          obtain ⟨r₁, stands₁, within₁, error₁⟩ :=
            step_near firstA firstB stands within error (by omega) here
          obtain ⟨r₂, stands₂, error₂⟩ := ih (Nat.succ.inj same) restA restB stands₁ within₁ error₁
            (by omega) small
          have count : k + 1 + a.length = k + (a.length + 1) := by omega
          rw [count] at error₂
          refine ⟨r₂, stands₂, ?_⟩
          rw [inner_cons, mass_cons, List.length_cons, ← add_assoc D, ← add_assoc P]
          exact error₂

/-- **A computed inner product is off the exact one by a part of the mass.** -/
theorem dot_near (same : a.length = b.length) (finiteA : ∀ x ∈ a, x.isFinite = true)
    (finiteB : ∀ y ∈ b, y.isFinite = true) (short : a.length ≤ 2 ^ 20)
    (small : mass a b ≤ 2 ^ 120) :
    ∃ d, (dot a b).StandsFor d ∧ |d - inner a b| ≤
      (2 * a.length + 1) / 2 ^ 24 * mass a b + 4 * a.length / 2 ^ 150 := by
  have start : (zero true : Binary32).StandsFor 0 := ⟨0, by decide +kernel, Rat.cast_zero⟩
  obtain ⟨d, stands, error⟩ := foldl_near (k := 0) (D := 0) (P := 0) same finiteA finiteB start
    (by simp) (by simp) (by simpa using short) (by simpa using small)
  refine ⟨d, stands, ?_⟩
  simpa using error

end Embedding

end Retrieval
