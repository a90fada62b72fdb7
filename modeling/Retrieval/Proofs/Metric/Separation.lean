/-
# Retrieval.Proofs.Metric.Separation -- directions that the cosine tells apart

For embeddings of moderate length (`Embedding.Moderate`) the inner product is off the exact
one by a part of the product of the lengths, and so are the magnitudes
(`Embedding.Measured`).  So the computed cosine is off the exact one by a part that grows
with the number of components only.

Two of them are separated (`Embedding.Separated`) when the exact cosine of the angle between
them stays below one by more than that.  Then the computed distance of an embedding from
itself is smaller than that from the other (`Embedding.Separated.cosine_self_before`).
-/
import Retrieval.Proofs.Index.Ranking
import Retrieval.Proofs.Metric.Cosine
import Retrieval.Proofs.Metric.InnerProduct

namespace Retrieval

set_option autoImplicit false

/-- Floats are in the order of what they stand for. -/
theorem Binary.StandsFor.before {x y : Binary32} {p q : ℝ} (left : x.StandsFor p)
    (right : y.StandsFor q) (less : p < q) : x.Before y := by
  obtain ⟨r, exact, rfl⟩ := left
  obtain ⟨r', exact', rfl⟩ := right
  obtain ⟨s, a, ⟨finite, bounded, rfl⟩, rfl⟩ := exists_hasCode exact
  obtain ⟨t, b, ⟨finite', bounded', rfl⟩, rfl⟩ := exists_hasCode exact'
  have order := Format.single.value_strictMono.lt_iff_lt (a := a) (b := b)
  have order' := Format.single.value_strictMono.lt_iff_lt (a := b) (b := a)
  have below := Format.single.value_nonneg a
  have below' := Format.single.value_nonneg b
  rw [Rat.cast_lt] at less
  cases s <;> cases t
  all_goals simp only [Bool.false_eq_true, if_true, if_false] at less
  · exact order.1 less
  · linarith
  · trivial
  · exact order'.1 (by linarith)

namespace Embedding

open Binary

variable {a b : Embedding}

/-! ## Embeddings of moderate length -/

/-- The components are finite and not too many, and their squares are neither too small nor
too large to be added up with care. -/
structure Moderate (a : Embedding) : Prop where
  finite : ∀ x ∈ a, x.isFinite = true
  nonempty : a ≠ []
  short : a.length ≤ 2 ^ 20
  least : 1 / 2 ^ 100 ≤ inner a a
  most : inner a a ≤ 2 ^ 120

/-- The exact product of the lengths in space. -/
noncomputable def lengths (a b : Embedding) : ℝ := √(inner a a) * √(inner b b)

theorem lengths_self (a : Embedding) : lengths a a = inner a a :=
  Real.mul_self_sqrt (inner_self_nonneg a)

theorem mass_le_lengths (same : a.length = b.length) : mass a b ≤ lengths a b := by
  rw [lengths, ← Real.sqrt_mul (inner_self_nonneg a)]
  exact Real.le_sqrt_of_sq_le (mass_sq_le same)

namespace Moderate

variable (moderate : Moderate a) (moderate' : Moderate b)
include moderate

theorem root : 1 / 2 ^ 50 ≤ √(inner a a) ∧ √(inner a a) ≤ 2 ^ 60 := by
  constructor
  · refine Real.le_sqrt_of_sq_le (le_trans (le_of_eq ?_) moderate.least)
    norm_num
  · refine Real.sqrt_le_iff.2 ⟨by positivity, le_trans moderate.most (le_of_eq ?_)⟩
    norm_num

include moderate'

theorem lengths_bounds : 1 / 2 ^ 100 ≤ lengths a b ∧ lengths a b ≤ 2 ^ 120 := by
  obtain ⟨least, most⟩ := moderate.root
  obtain ⟨least', most'⟩ := moderate'.root
  constructor
  · calc (1 / 2 ^ 100 : ℝ) = 1 / 2 ^ 50 * (1 / 2 ^ 50) := by norm_num
      _ ≤ lengths a b := mul_le_mul least least' (by positivity) (Real.sqrt_nonneg _)
  · calc lengths a b ≤ 2 ^ 60 * 2 ^ 60 :=
          mul_le_mul most most' (Real.sqrt_nonneg _) (by positivity)
      _ = 2 ^ 120 := by norm_num

/-- **A computed inner product is off the exact one by a part of the lengths.** -/
theorem dot_near (same : a.length = b.length) :
    ∃ d, (dot a b).StandsFor d ∧ |d - inner a b| ≤ drift a.length * lengths a b := by
  obtain ⟨least, most⟩ := moderate.lengths_bounds moderate'
  have whole := mass_le_lengths same
  obtain ⟨d, stands, error⟩ := Embedding.dot_near same moderate.finite moderate'.finite
    moderate.short (whole.trans most)
  refine ⟨d, stands, error.trans ?_⟩
  have count : (a.length : ℝ) ≤ 2 ^ 20 := by exact_mod_cast moderate.short
  have units : 4 * a.length / 2 ^ 150 ≤ 1 / 2 ^ 24 * lengths a b := by
    calc (4 * a.length / 2 ^ 150 : ℝ) ≤ 4 * 2 ^ 20 / 2 ^ 150 := by gcongr
      _ ≤ 1 / 2 ^ 24 * (1 / 2 ^ 100) := by norm_num
      _ ≤ 1 / 2 ^ 24 * lengths a b := by gcongr
  have terms : (2 * a.length + 1) / 2 ^ 24 * mass a b ≤
      (2 * a.length + 1) / 2 ^ 24 * lengths a b := by gcongr
  have parts : drift a.length * lengths a b =
      (2 * a.length + 1) / 2 ^ 24 * lengths a b + 1 / 2 ^ 24 * lengths a b := by
    rw [drift]
    ring
  linarith

end Moderate

/-! ## Magnitudes -/

/-- What the sum of the squares and the magnitude of an embedding stand for. -/
structure Measured (a : Embedding) (s m : ℝ) : Prop where
  sum : a.squaredMagnitude.StandsFor s
  least : (1 - drift a.length) * inner a a ≤ s
  low : 1 / 2 ^ 102 ≤ s
  high : s ≤ 2 ^ 122
  root : (magnitude a).StandsFor m
  near : |m - √s| ≤ √s / 2 ^ 24

theorem Moderate.exists_measured (moderate : Moderate a) : ∃ s m, Measured a s m := by
  obtain ⟨s, stands, error⟩ := moderate.dot_near moderate rfl
  rw [dot_self] at stands
  rw [lengths_self] at error
  obtain ⟨below, above⟩ := abs_le.1 error
  have part := mul_le_mul_of_nonneg_right (drift_le moderate.short) (inner_self_nonneg a)
  have least := moderate.least
  have most := moderate.most
  have low : 1 / 2 ^ 102 ≤ s := by
    have quarter : (1 / 2 ^ 102 : ℝ) = 1 / 4 * (1 / 2 ^ 100) := by norm_num
    rw [quarter]
    linarith
  have positive : 0 < s := lt_of_lt_of_le (by positivity) low
  obtain ⟨m, root, near⟩ := stands.sqrt positive
  rw [abs_of_nonneg (Real.sqrt_nonneg s)] at near
  refine ⟨s, m, stands, by linarith, low, by linarith, root,
    near.trans (Format.slack_le_of_normal ?_)⟩
  refine Real.le_sqrt_of_sq_le (le_trans ?_ low)
  norm_num

namespace Measured

variable {s s' m m' : ℝ}

theorem root_bounds (measured : Measured a s m) : 1 / 2 ^ 51 ≤ √s ∧ √s ≤ 2 ^ 61 := by
  constructor
  · refine Real.le_sqrt_of_sq_le (le_trans (le_of_eq ?_) measured.low)
    norm_num
  · refine Real.sqrt_le_iff.2 ⟨by positivity, le_trans measured.high (le_of_eq ?_)⟩
    norm_num

theorem bounds (measured : Measured a s m) :
    (1 - 1 / 2 ^ 24) * √s ≤ m ∧ m ≤ (1 + 1 / 2 ^ 24) * √s ∧ 1 / 2 ^ 52 ≤ m ∧ m ≤ 2 ^ 62 := by
  obtain ⟨least, most⟩ := measured.root_bounds
  obtain ⟨below, above⟩ := abs_le.1 measured.near
  refine ⟨by linarith, by linarith, ?_, by linarith⟩
  have half : (1 / 2 ^ 52 : ℝ) = 1 / 2 * (1 / 2 ^ 51) := by norm_num
  rw [half]
  linarith

theorem isZero (measured : Measured a s m) : (magnitude a).isZero = false := by
  obtain ⟨-, -, least, -⟩ := measured.bounds
  exact measured.root.isZero (ne_of_gt (lt_of_lt_of_le (by positivity) least))

theorem le_roots (measured : Measured a s m) (measured' : Measured b s' m')
    (same : a.length = b.length) (small : drift a.length ≤ 1) :
    (1 - drift a.length) * lengths a b ≤ √s * √s' := by
  have positive : 0 ≤ s := le_trans (by positivity) measured.low
  have squares : lengths a b ^ 2 = inner a a * inner b b := by
    rw [lengths, mul_pow, Real.sq_sqrt (inner_self_nonneg a), Real.sq_sqrt (inner_self_nonneg b)]
  have least' := measured'.least
  rw [← same] at least'
  rw [← Real.sqrt_mul positive]
  refine Real.le_sqrt_of_sq_le ?_
  calc ((1 - drift a.length) * lengths a b) ^ 2 =
        (1 - drift a.length) * inner a a * ((1 - drift a.length) * inner b b) := by
          rw [mul_pow, squares]
          ring
    _ ≤ s * s' := mul_le_mul measured.least least'
          (mul_nonneg (sub_nonneg.2 small) (inner_self_nonneg b)) positive

/-- **The computed product of the magnitudes,** after three roundings. -/
theorem exists_product (measured : Measured a s m) (measured' : Measured b s' m') :
    ∃ q, (magnitude a * magnitude b).StandsFor q ∧
      (1 - 1 / 2 ^ 24) ^ 3 * (√s * √s') ≤ q ∧ q ≤ (1 + 1 / 2 ^ 24) ^ 3 * (√s * √s') := by
  obtain ⟨low, high, least, most⟩ := measured.bounds
  obtain ⟨low', high', least', most'⟩ := measured'.bounds
  have root := Real.sqrt_nonneg s
  have root' := Real.sqrt_nonneg s'
  have positive : 0 ≤ m := le_trans (by positivity) least
  have positive' : 0 ≤ m' := le_trans (by positivity) least'
  have normal : 1 / 2 ^ 126 ≤ m * m' := by
    calc (1 / 2 ^ 126 : ℝ) ≤ 1 / 2 ^ 52 * (1 / 2 ^ 52) := by norm_num
      _ ≤ m * m' := mul_le_mul least least' (by positivity) positive
  have small : m * m' ≤ 2 ^ 127 := by
    calc m * m' ≤ 2 ^ 62 * 2 ^ 62 := mul_le_mul most most' positive' (by positivity)
      _ ≤ 2 ^ 127 := by norm_num
  have nonneg := mul_nonneg positive positive'
  obtain ⟨q, stands, error⟩ := measured.root.mul measured'.root (by rwa [abs_of_nonneg nonneg])
  rw [abs_of_nonneg nonneg] at error
  obtain ⟨below, above⟩ := abs_le.1 (error.trans (Format.slack_le_of_normal normal))
  refine ⟨q, stands, ?_, ?_⟩
  · calc (1 - 1 / 2 ^ 24) ^ 3 * (√s * √s') =
          (1 - 1 / 2 ^ 24) * ((1 - 1 / 2 ^ 24) * √s * ((1 - 1 / 2 ^ 24) * √s')) := by ring
      _ ≤ (1 - 1 / 2 ^ 24) * (m * m') := by
          refine mul_le_mul_of_nonneg_left (mul_le_mul low low' ?_ positive) (by norm_num)
          exact mul_nonneg (by norm_num) root'
      _ ≤ q := by linarith
  · calc q ≤ (1 + 1 / 2 ^ 24) * (m * m') := by linarith
      _ ≤ (1 + 1 / 2 ^ 24) * ((1 + 1 / 2 ^ 24) * √s * ((1 + 1 / 2 ^ 24) * √s')) := by gcongr
      _ = (1 + 1 / 2 ^ 24) ^ 3 * (√s * √s') := by ring

end Measured

/-! ## Distances by the angle -/

/-- **What a distance by the angle stands for,** given what the quotient is taken of. -/
theorem cosine_near {s s' m m' d q : ℝ} (measured : Measured a s m) (measured' : Measured b s' m')
    (standsD : (dot a b).StandsFor d) (standsQ : (magnitude a * magnitude b).StandsFor q)
    (someQ : q ≠ 0) (small : |d / q| ≤ 8) :
    ∃ ρ δ, |ρ - d / q| ≤ |d / q| / 2 ^ 24 + 1 / 2 ^ 150 ∧ (cosine a b).StandsFor δ ∧
      |δ - (1 - ρ)| ≤ |1 - ρ| / 2 ^ 24 + 1 / 2 ^ 150 := by
  obtain ⟨ρ, standsρ, errorρ⟩ := standsD.div standsQ someQ (small.trans (by norm_num))
  replace errorρ := errorρ.trans (Format.slack_le_add (abs_nonneg _))
  have moderate : |1 - ρ| ≤ 2 ^ 127 := by
    have split : 1 - ρ = 1 + (-(d / q)) + -(ρ - d / q) := by ring
    have bound := abs_add_three 1 (-(d / q)) (-(ρ - d / q))
    rw [← split, abs_one, abs_neg, abs_neg] at bound
    have half : (1 / 2 ^ 150 : ℝ) ≤ 1 := by norm_num
    linarith
  have one : (ofInt 1 : Binary32).StandsFor 1 := by
    simpa using standsFor_ofInt (n := 1) (by decide)
  obtain ⟨δ, standsδ, errorδ⟩ := one.sub standsρ moderate
  rw [← cosine_of_nonzero measured.isZero measured'.isZero] at standsδ
  exact ⟨ρ, δ, errorρ, standsδ, errorδ.trans (Format.slack_le_add (abs_nonneg _))⟩

/-- **An embedding is close to itself.** -/
theorem Moderate.cosine_self_le (moderate : Moderate a) :
    ∃ δ, (cosine a a).StandsFor δ ∧ δ ≤ 5 / 2 ^ 24 := by
  obtain ⟨s, m, measured⟩ := moderate.exists_measured
  obtain ⟨q, standsQ, low, high⟩ := measured.exists_product measured
  have positive : 0 < s := lt_of_lt_of_le (by positivity) measured.low
  rw [Real.mul_self_sqrt positive.le] at low high
  have half : 1 / 2 * s ≤ q := le_trans (mul_le_mul_of_nonneg_right (by norm_num) positive.le) low
  have some : 0 < q := by linarith
  have standsD : (dot a a).StandsFor s := dot_self a ▸ measured.sum
  have ratio : 1 - 3 / 2 ^ 24 ≤ s / q := by
    rw [le_div_iff₀ some]
    calc (1 - 3 / 2 ^ 24) * q ≤ (1 - 3 / 2 ^ 24) * ((1 + 1 / 2 ^ 24) ^ 3 * s) :=
          mul_le_mul_of_nonneg_left high (by norm_num)
      _ = (1 - 3 / 2 ^ 24) * (1 + 1 / 2 ^ 24) ^ 3 * s := by ring
      _ ≤ 1 * s := mul_le_mul_of_nonneg_right (by norm_num) positive.le
      _ = s := one_mul s
  have most : s / q ≤ 2 := by
    rw [div_le_iff₀ some]
    linarith
  have nonneg : 0 ≤ s / q := by positivity
  obtain ⟨ρ, δ, errorρ, stands, errorδ⟩ := cosine_near measured measured standsD standsQ some.ne'
    (by rw [abs_of_nonneg nonneg]; linarith)
  rw [abs_of_nonneg nonneg] at errorρ
  have belowρ := (abs_le.1 errorρ).1
  have aboveδ := (abs_le.1 errorδ).2
  refine ⟨δ, stands, ?_⟩
  rcases abs_cases (1 - ρ) with ⟨same, -⟩ | ⟨same, negative⟩
  · rw [same] at aboveδ
    linarith
  · rw [same] at aboveδ
    linarith

/-! ## Separation -/

/-- Embeddings of moderate length, with an angle between them whose cosine stays below one
by more than the roundings can make up for. -/
structure Separated (a b : Embedding) : Prop where
  left : Moderate a
  right : Moderate b
  apart : inner a b ≤ (1 - (a.length + 4) / 2 ^ 22) * lengths a b

/-- The computed inner product stays below the product of the lengths. -/
theorem Separated.dot_le (separated : Separated a b) {d : ℝ}
    (error : |d - inner a b| ≤ drift a.length * lengths a b) :
    d ≤ (1 - drift a.length - 12 / 2 ^ 24) * lengths a b := by
  have parts : (1 - drift a.length - 12 / 2 ^ 24) * lengths a b =
      (1 - (a.length + 4) / 2 ^ 22) * lengths a b + drift a.length * lengths a b := by
    rw [drift]
    ring
  linarith [(abs_le.1 error).2, separated.apart]

/-- **The computed quotient stays below one,** by more than what is left to be rounded. -/
theorem Separated.quotient_le {s s' m m' : ℝ} (separated : Separated a b)
    (same : a.length = b.length) (measured : Measured a s m) (measured' : Measured b s' m') :
    ∃ d q, (dot a b).StandsFor d ∧ (magnitude a * magnitude b).StandsFor q ∧ q ≠ 0 ∧
      |d / q| ≤ 8 ∧ d / q + |d / q| / 2 ^ 24 ≤ 1 - 7 / 2 ^ 24 := by
  obtain ⟨d, standsD, errorD⟩ := separated.left.dot_near separated.right same
  obtain ⟨q, standsQ, low, -⟩ := measured.exists_product measured'
  obtain ⟨length, -⟩ := separated.left.lengths_bounds separated.right
  have positive : 0 < lengths a b := lt_of_lt_of_le (by positivity) length
  have tolerable := drift_le separated.left.short
  have least : (1 - 1 / 2 ^ 24) ^ 3 * ((1 - drift a.length) * lengths a b) ≤ q :=
    le_trans (mul_le_mul_of_nonneg_left
      (measured.le_roots measured' same (by linarith)) (by norm_num)) low
  have half : 1 / 2 * lengths a b ≤ q := by
    calc 1 / 2 * lengths a b ≤ 7 / 8 * (3 / 4 * lengths a b) := by linarith
      _ ≤ (1 - 1 / 2 ^ 24) ^ 3 * ((1 - drift a.length) * lengths a b) := by
          gcongr
          · norm_num
          · linarith
      _ ≤ q := least
  have some : 0 < q := by linarith
  have ratio : |d / q| ≤ 8 := by
    rw [abs_div, abs_of_pos some, div_le_iff₀ some]
    have part : drift a.length * lengths a b ≤ 1 / 4 * lengths a b := by gcongr
    have exact := (abs_inner_le_mass a b).trans (mass_le_lengths same)
    have near := abs_sub_abs_le_abs_sub d (inner a b)
    linarith
  refine ⟨d, q, standsD, standsQ, some.ne', ratio, ?_⟩
  rcases le_or_gt d 0 with obtuse | acute
  · have negative : d / q ≤ 0 := div_nonpos_of_nonpos_of_nonneg obtuse some.le
    rw [abs_of_nonpos negative]
    linarith
  · rw [abs_of_pos (div_pos acute some)]
    have quotient : (1 + 1 / 2 ^ 24) * (d / q) ≤ 1 - 7 / 2 ^ 24 := by
      rw [← mul_div_assoc, div_le_iff₀ some]
      calc (1 + 1 / 2 ^ 24) * d ≤
            (1 + 1 / 2 ^ 24) * ((1 - drift a.length - 12 / 2 ^ 24) * lengths a b) := by
              gcongr
              exact separated.dot_le errorD
        _ = (1 + 1 / 2 ^ 24) * (1 - drift a.length - 12 / 2 ^ 24) * lengths a b := by ring
        _ ≤ (1 - 7 / 2 ^ 24) * (1 - 1 / 2 ^ 24) ^ 3 * (1 - drift a.length) * lengths a b := by
            gcongr ?_ * _
            linarith [drift_pos a.length]
        _ = (1 - 7 / 2 ^ 24) * ((1 - 1 / 2 ^ 24) ^ 3 * ((1 - drift a.length) * lengths a b)) := by
            ring
        _ ≤ (1 - 7 / 2 ^ 24) * q := mul_le_mul_of_nonneg_left least (by norm_num)
    linarith

/-- **Embeddings that are separated are not close.** -/
theorem Separated.le_cosine (separated : Separated a b) (same : a.length = b.length) :
    ∃ δ, (cosine a b).StandsFor δ ∧ 6 / 2 ^ 24 ≤ δ := by
  obtain ⟨s, m, measured⟩ := separated.left.exists_measured
  obtain ⟨s', m', measured'⟩ := separated.right.exists_measured
  obtain ⟨d, q, standsD, standsQ, some, ratio, below⟩ :=
    separated.quotient_le same measured measured'
  obtain ⟨ρ, δ, errorρ, stands, errorδ⟩ :=
    cosine_near measured measured' standsD standsQ some ratio
  refine ⟨δ, stands, ?_⟩
  have aboveρ := (abs_le.1 errorρ).2
  have belowδ := (abs_le.1 errorδ).1
  have units : (1 / 2 ^ 150 : ℝ) ≤ 1 / 2 ^ 48 := by norm_num
  have rounded : 0 < 1 - ρ := by linarith
  rw [abs_of_pos rounded] at belowδ
  linarith

/-- **An embedding is closer to itself than to what it is separated from.** -/
theorem Separated.cosine_self_before (separated : Separated a b) (same : a.length = b.length) :
    (cosine a a).Before (cosine a b) := by
  obtain ⟨δ, stands, small⟩ := separated.left.cosine_self_le
  obtain ⟨δ', stands', large⟩ := separated.le_cosine same
  exact stands.before stands' (by linarith)

end Embedding

end Retrieval
