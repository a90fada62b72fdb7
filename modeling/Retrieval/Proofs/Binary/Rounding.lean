/-
# Retrieval.Proofs.Binary.Rounding -- rounding to the nearest code

`Format.Rounds` says that a code is the nearest to a rational magnitude: the magnitude
lies between the midpoints before and behind the code, and on one of them only if the
code is even.  Exactly one code is (`Rounds.unique`), and `Format.round` finds it
(`round_rounds`).

A rounded number stays on its side of another as long as the exact one does not come
within the midpoint next to that (`Rounds.lt_of_middle_lt`, `Rounds.le_of_lt_middle`).
-/
import Mathlib.Algebra.Order.Field.Basic
import Mathlib.Data.Rat.Cast.Order
import Mathlib.Tactic.FieldSimp
import Mathlib.Tactic.Linarith
import Mathlib.Tactic.Positivity
import Retrieval.Proofs.Binary.Code

namespace Retrieval

set_option autoImplicit false

namespace Format

variable (F : Format) {n d : Nat} {q : ℚ} {code b : Nat}

/-! ## Magnitudes -/

/-- The magnitude of a code. -/
def value (code : Nat) : ℚ := F.units code / 2 ^ F.scale

/-- The midpoint between a code and the next. -/
def middle (code : Nat) : ℚ := F.upperEnd code / 2 ^ (F.scale + 1)

variable {F}

theorem value_strictMono : StrictMono F.value := fun a b less => by
  have counts : (F.units a : ℚ) < F.units b := by exact_mod_cast F.units_strictMono less
  exact div_lt_div_of_pos_right counts (by positivity)

theorem middle_strictMono : StrictMono F.middle := fun a b less => by
  have counts : (F.upperEnd a : ℚ) < F.upperEnd b := by exact_mod_cast F.upperEnd_strictMono less
  exact div_lt_div_of_pos_right counts (by positivity)

@[simp] theorem value_zero : F.value 0 = 0 := by simp [value]

theorem value_nonneg (code : Nat) : 0 ≤ F.value code := by
  rw [value]
  positivity

theorem value_pos (positive : 0 < code) : 0 < F.value code := by
  rw [← F.value_zero]
  exact value_strictMono positive

/-- A midpoint is half a step behind its code. -/
theorem middle_eq (code : Nat) :
    F.middle code = F.value code + F.gap code / 2 ^ (F.scale + 1) := by
  rw [middle, value, upperEnd_eq', pow_succ]
  push_cast
  field_simp

/-- A midpoint is half a step before the next code. -/
theorem middle_eq_sub (code : Nat) :
    F.middle code = F.value (code + 1) - F.gap code / 2 ^ (F.scale + 1) := by
  rw [middle_eq, value, value, units_succ, pow_succ]
  push_cast
  field_simp
  ring

/-- A whole number with a short significand has a code. -/
theorem exists_value_eq (short : n < 2 * F.hidden) : ∃ code, F.value code = n := by
  obtain ⟨code, units⟩ := exists_units_eq short F.scale
  refine ⟨code, ?_⟩
  rw [value, units]
  push_cast
  field_simp

theorem value_lt_middle (code : Nat) : F.value code < F.middle code := by
  have step : (0 : ℚ) < F.gap code := by exact_mod_cast gap_pos code
  rw [middle_eq]
  linarith [div_pos step (show (0 : ℚ) < 2 ^ (F.scale + 1) by positivity)]

theorem middle_lt_value (code : Nat) : F.middle code < F.value (code + 1) := by
  have step : (0 : ℚ) < F.gap code := by exact_mod_cast gap_pos code
  rw [middle_eq_sub]
  linarith [div_pos step (show (0 : ℚ) < 2 ^ (F.scale + 1) by positivity)]

theorem middle_pos (code : Nat) : 0 < F.middle code :=
  lt_of_le_of_lt (value_nonneg code) (value_lt_middle code)

/-! ## Steps -/

variable (F) in
/-- The step to the next code, as a magnitude. -/
def step (code : Nat) : ℚ := F.gap code / 2 ^ F.scale

theorem step_pos (code : Nat) : 0 < F.step code := by
  have gap : (0 : ℚ) < F.gap code := by exact_mod_cast F.gap_pos code
  rw [step]
  positivity

theorem step_mono {a b : Nat} (le : a ≤ b) : F.step a ≤ F.step b := by
  have gaps : (F.gap a : ℚ) ≤ F.gap b := by exact_mod_cast gap_mono le
  rw [step, step]
  exact div_le_div_of_nonneg_right gaps (by positivity)

theorem value_succ (code : Nat) : F.value (code + 1) = F.value code + F.step code := by
  rw [value, value, step, units_succ]
  push_cast
  ring

theorem middle_eq_step (code : Nat) : F.middle code = F.value code + F.step code / 2 := by
  rw [middle_eq, step, pow_succ]
  ring

/-- The magnitude of a code in steps to the next one. -/
theorem exists_steps (code : Nat) :
    ∃ M : Nat, M < 2 * F.hidden ∧ F.value code = M * F.step code := by
  obtain ⟨m, k, here⟩ := F.exists_inBinade code
  refine ⟨m, here.below, ?_⟩
  rw [value, step, here.units_eq, here.gap_eq]
  push_cast
  ring

/-- The step before a code is as long as the one behind it, or the code is the first of its
binade. -/
theorem step_succ_cases (b : Nat) : F.step (b + 1) = F.step b ∨
    F.step (b + 1) = 2 * F.step b ∧ F.value (b + 1) = F.hidden * F.step (b + 1) := by
  obtain ⟨m, k, here⟩ := F.exists_inBinade b
  rcases here.succ with next | ⟨-, next⟩
  · exact .inl (by rw [step, step, next.gap_eq, here.gap_eq])
  · refine .inr ⟨?_, ?_⟩
    · rw [step, step, next.gap_eq, here.gap_eq]
      push_cast
      ring
    · rw [value, step, next.units_eq, next.gap_eq]
      push_cast
      ring

/-! ## The nearest code -/

variable (F) in
/-- The code is the nearest to a magnitude, and even when another is as near. -/
structure Rounds (q : ℚ) (code : Nat) : Prop where
  before : ∀ b, code = b + 1 → F.middle b ≤ q ∧ (q = F.middle b → code % 2 = 0)
  behind : q ≤ F.middle code ∧ (q = F.middle code → code % 2 = 0)

namespace Rounds

theorem le_of_lt_middle (rounds : F.Rounds q code) (less : q < F.middle b) : code ≤ b := by
  by_contra past
  obtain ⟨c, rfl⟩ : ∃ c, code = c + 1 := ⟨code - 1, by omega⟩
  have between := F.middle_strictMono.monotone (show b ≤ c by omega)
  linarith [(rounds.before c rfl).1]

theorem lt_of_middle_lt (rounds : F.Rounds q code) (less : F.middle b < q) : b < code := by
  by_contra short
  have between := F.middle_strictMono.monotone (show code ≤ b by omega)
  linarith [rounds.behind.1]

/-- **No magnitude rounds to two codes.** -/
theorem unique {c : Nat} (first : F.Rounds q b) (second : F.Rounds q c) : b = c := by
  -- of two codes next to each other one is odd, and does not own the midpoint
  have apart {b c : Nat} (low : F.Rounds q b) (high : F.Rounds q c) : ¬ b < c := by
    intro less
    obtain ⟨a, rfl⟩ : ∃ a, c = a + 1 := ⟨c - 1, by omega⟩
    have lower := (high.before a rfl).1
    have between := F.middle_strictMono.monotone (show b ≤ a by omega)
    have touch : q = F.middle b := le_antisymm low.behind.1 (le_trans between lower)
    have same : a = b := by
      refine le_antisymm ?_ (by omega)
      exact F.middle_strictMono.le_iff_le.1 (touch ▸ lower)
    subst same
    have even := low.behind.2 touch
    have odd := (high.before a rfl).2 touch
    omega
  exact le_antisymm (not_lt.1 (apart second first)) (not_lt.1 (apart first second))

end Rounds

/-- **Rounding moves a normal number by a small part of it.** -/
theorem Rounds.close (rounds : F.Rounds q code) (normal : F.hidden ≤ code) :
    F.value code * (1 - 1 / (2 * F.hidden)) ≤ q ∧
      q ≤ F.value code * (1 + 1 / (2 * F.hidden)) := by
  have positive : (0 : ℚ) < F.hidden := by exact_mod_cast F.hidden_pos
  have part {c : Nat} (le : c ≤ code) :
      F.gap c / 2 ^ (F.scale + 1) ≤ F.value code * (1 / (2 * F.hidden)) := by
    have counts : F.gap c * F.hidden ≤ F.units code :=
      le_trans (Nat.mul_le_mul_right _ (gap_mono le)) (gap_mul_hidden_le normal)
    have counts : (F.gap c * F.hidden : ℚ) ≤ F.units code := by exact_mod_cast counts
    rw [value, div_mul_div_comm, mul_one, pow_succ,
      div_le_div_iff₀ (by positivity) (by positivity)]
    have scaled := mul_le_mul_of_nonneg_right counts (show (0 : ℚ) ≤ 2 ^ F.scale * 2 by positivity)
    linarith
  constructor
  · obtain ⟨b, rfl⟩ : ∃ b, code = b + 1 := ⟨code - 1, by have := F.hidden_pos; omega⟩
    have lower := (rounds.before b rfl).1
    rw [middle_eq_sub] at lower
    linarith [part (Nat.le_succ b)]
  · have upper := rounds.behind.1
    rw [middle_eq] at upper
    linarith [part (Nat.le_refl code)]

/-- A code is the nearest to its own magnitude. -/
theorem rounds_value (code : Nat) : F.Rounds (F.value code) code := by
  refine ⟨?_, le_of_lt (value_lt_middle code), fun same => ?_⟩
  · rintro b rfl
    have less := F.middle_lt_value b
    exact ⟨le_of_lt less, fun same => absurd same (ne_of_gt less)⟩
  · exact absurd same (ne_of_lt (value_lt_middle code))

/-! ## Rounding -/

theorem nearest_spec (positive : 0 < d) (n : Nat) :
    2 * n ≤ (2 * nearest n d + 1) * d ∧ 2 * nearest n d * d ≤ 2 * n + d ∧
      (2 * n = (2 * nearest n d + 1) * d ∨ 2 * nearest n d * d = 2 * n + d →
        nearest n d % 2 = 0) := by
  have split := Nat.div_add_mod n d
  have rest := Nat.mod_lt n positive
  have below : (2 * (n / d) + 1) * d = 2 * (d * (n / d)) + d := by ring
  have above : (2 * (n / d + 1) + 1) * d = 2 * (d * (n / d)) + 3 * d := by ring
  have twice : 2 * (n / d) * d = 2 * (d * (n / d)) := by ring
  have next : 2 * (n / d + 1) * d = 2 * (d * (n / d)) + 2 * d := by ring
  unfold nearest
  dsimp only
  split
  · refine ⟨by omega, by omega, fun tie => ?_⟩
    omega
  · split
    · refine ⟨by omega, by omega, fun tie => ?_⟩
      omega
    · rcases Nat.mod_two_eq_zero_or_one (n / d) with even | odd
      · simp only [even, Nat.add_zero]
        exact ⟨by omega, by omega, fun _ => trivial⟩
      · simp only [odd]
        exact ⟨by omega, by omega, fun _ => by omega⟩

theorem even_hidden (fine : 0 < F.fractionBits) : F.hidden % 2 = 0 := by
  obtain ⟨bits, same⟩ : ∃ bits, F.fractionBits = bits + 1 := ⟨F.fractionBits - 1, by omega⟩
  rw [hidden_eq, same, pow_succ, Nat.mul_mod_left]

/-- The nearest count in a binade, when the quotient lies in it. -/
theorem round_eq (n d : Nat) :
    F.round n d = (Nat.log2 (n / d) - F.fractionBits) * F.hidden +
      nearest n (d * 2 ^ (Nat.log2 (n / d) - F.fractionBits)) := by
  rw [round, Nat.shiftLeft_eq]

/-- The binade in which a quotient is rounded: it has the quotient below its end, and
above its beginning unless it is the first. -/
theorem binade_spec (positive : 0 < d) (n : Nat) :
    let k := Nat.log2 (n / d) - F.fractionBits
    n < 2 * F.hidden * (d * 2 ^ k) ∧ (0 < k → F.hidden * (d * 2 ^ k) ≤ n) := by
  intro k
  rw [hidden_eq]
  constructor
  · have bound : n / d < 2 ^ (Nat.log2 (n / d) + 1) := Nat.lt_log2_self
    calc n < 2 ^ (Nat.log2 (n / d) + 1) * d := (Nat.div_lt_iff_lt_mul positive).1 bound
      _ ≤ 2 ^ (F.fractionBits + k + 1) * d :=
          Nat.mul_le_mul_right _ (Nat.pow_le_pow_right (by decide) (by omega))
      _ = 2 * 2 ^ F.fractionBits * (d * 2 ^ k) := by ring
  · intro some
    have nonzero : n / d ≠ 0 := by
      intro zero
      have none : k = 0 := by simp [k, zero]
      omega
    have bound := Nat.log2_self_le nonzero
    have exponent : F.fractionBits + k = Nat.log2 (n / d) := by omega
    calc 2 ^ F.fractionBits * (d * 2 ^ k) = 2 ^ (F.fractionBits + k) * d := by ring
      _ ≤ n / d * d := Nat.mul_le_mul_right _ (exponent ▸ bound)
      _ ≤ n := Nat.div_mul_le_self n d

/-- A count of the steps in a binade that is nearest to a quotient.  It is a significand
of the binade, or the first one behind it. -/
structure Nearest (F : Format) (n d k N : Nat) : Prop where
  upper : 2 * n ≤ (2 * N + 1) * (d * 2 ^ k)
  lower : 2 * N * (d * 2 ^ k) ≤ 2 * n + d * 2 ^ k
  tie : 2 * n = (2 * N + 1) * (d * 2 ^ k) ∨ 2 * N * (d * 2 ^ k) = 2 * n + d * 2 ^ k → N % 2 = 0
  below : n < 2 * F.hidden * (d * 2 ^ k)
  most : N ≤ 2 * F.hidden
  least : 0 < k → F.hidden * (d * 2 ^ k) ≤ n ∧ F.hidden ≤ N

theorem nearest_of_bounds {k : Nat} (positive : 0 < d) (below : n < 2 * F.hidden * (d * 2 ^ k))
    (behind : 0 < k → F.hidden * (d * 2 ^ k) ≤ n) : F.Nearest n d k (nearest n (d * 2 ^ k)) := by
  have wide : 0 < d * 2 ^ k := Nat.mul_pos positive (Nat.two_pow_pos k)
  obtain ⟨upper, lower, tie⟩ := nearest_spec wide n
  generalize nearest n (d * 2 ^ k) = N at upper lower tie ⊢
  refine ⟨upper, lower, tie, below, ?_, fun some => ⟨behind some, ?_⟩⟩
  · by_contra past
    have : (4 * F.hidden + 2) * (d * 2 ^ k) ≤ 2 * N * (d * 2 ^ k) :=
      Nat.mul_le_mul_right _ (by omega)
    have expand : (4 * F.hidden + 2) * (d * 2 ^ k) =
      2 * (2 * F.hidden * (d * 2 ^ k)) + 2 * (d * 2 ^ k) := by ring
    omega
  · by_contra short
    have bound := behind some
    have : (2 * N + 1) * (d * 2 ^ k) < (2 * F.hidden) * (d * 2 ^ k) :=
      Nat.mul_lt_mul_of_pos_right (by omega) wide
    have expand : (2 * F.hidden) * (d * 2 ^ k) = 2 * (F.hidden * (d * 2 ^ k)) := by ring
    omega

namespace Nearest

variable {k N : Nat}

/-- The parity of the count is that of the code. -/
theorem even (near : F.Nearest n d k N) (fine : 0 < F.fractionBits)
    (tie : 2 * n = (2 * N + 1) * (d * 2 ^ k) ∨ 2 * N * (d * 2 ^ k) = 2 * n + d * 2 ^ k) :
    (k * F.hidden + N) % 2 = 0 := by
  rw [Nat.add_mod, Nat.mul_mod, even_hidden fine, near.tie tie, Nat.mul_zero, Nat.zero_mod]

/-- The quotient is not before the midpoint before the code. -/
theorem before (near : F.Nearest n d k N) (fine : 0 < F.fractionBits) (positive : 0 < d)
    (code_eq : k * F.hidden + N = b + 1) :
    F.upperEnd b * d ≤ 2 * n ∧ (2 * n = F.upperEnd b * d → (k * F.hidden + N) % 2 = 0) := by
  have hidden := F.hidden_pos
  by_cases first : 0 < k ∧ N = F.hidden
  · -- the midpoint lies in the binade before, and the quotient behind the code
    obtain ⟨some, rfl⟩ := first
    obtain ⟨j, rfl⟩ : ∃ j, k = j + 1 := ⟨k - 1, by omega⟩
    have here : F.InBinade b (2 * F.hidden - 1) j := by
      have expand : (j + 1) * F.hidden = j * F.hidden + F.hidden := by ring
      exact ⟨by omega, by omega, .inr (by omega)⟩
    have strict : F.upperEnd b * d < 2 * n := by
      rw [here.upperEnd_eq]
      calc (2 * (2 * F.hidden - 1) + 1) * 2 ^ j * d < (4 * F.hidden) * 2 ^ j * d := by
            apply Nat.mul_lt_mul_of_pos_right _ positive
            exact Nat.mul_lt_mul_of_pos_right (by omega) (Nat.two_pow_pos j)
        _ = 2 * (F.hidden * (d * 2 ^ (j + 1))) := by ring
        _ ≤ 2 * n := Nat.mul_le_mul_left 2 (near.least some).1
    exact ⟨le_of_lt strict, fun same => absurd same (ne_of_gt strict)⟩
  · have some : 0 < N := by
      by_contra none
      have zero : k = 0 := by
        by_contra nonzero
        have := (near.least (by omega)).2
        omega
      rw [zero] at code_eq
      omega
    obtain ⟨M, rfl⟩ : ∃ M, N = M + 1 := ⟨N - 1, by omega⟩
    have most := near.most
    have here : F.InBinade b M k := by
      refine ⟨by omega, by omega, ?_⟩
      by_contra early
      have := (near.least (by omega)).2
      exact first ⟨by omega, by omega⟩
    have lower := near.lower
    have same : 2 * (M + 1) * (d * 2 ^ k) = F.upperEnd b * d + d * 2 ^ k := by
      rw [here.upperEnd_eq]
      ring
    constructor
    · omega
    · intro touch
      exact near.even fine (.inr (by omega))

/-- The quotient is not behind the midpoint behind the code. -/
theorem behind (near : F.Nearest n d k N) (fine : 0 < F.fractionBits) :
    2 * n ≤ F.upperEnd (k * F.hidden + N) * d ∧
      (2 * n = F.upperEnd (k * F.hidden + N) * d → (k * F.hidden + N) % 2 = 0) := by
  have hidden := F.hidden_pos
  rcases Nat.lt_or_eq_of_le near.most with inside | last
  · have here : F.InBinade (k * F.hidden + N) N k := by
      refine ⟨rfl, inside, ?_⟩
      rcases Nat.eq_zero_or_pos k with zero | some
      · exact .inl zero
      · exact .inr (near.least some).2
    have same : F.upperEnd (k * F.hidden + N) * d = (2 * N + 1) * (d * 2 ^ k) := by
      rw [here.upperEnd_eq]
      ring
    rw [same]
    constructor
    · exact near.upper
    · intro touch
      exact near.even fine (.inl touch)
  · -- rounded up to the first code of the next binade
    have here : F.InBinade (k * F.hidden + N) F.hidden (k + 1) :=
      ⟨by rw [last]; ring, by omega, .inr (Nat.le_refl _)⟩
    have strict : 2 * n < F.upperEnd (k * F.hidden + N) * d := by
      rw [here.upperEnd_eq]
      calc 2 * n < 2 * (2 * F.hidden * (d * 2 ^ k)) :=
            Nat.mul_lt_mul_of_pos_left near.below (by decide)
        _ = (2 * F.hidden) * 2 ^ (k + 1) * d := by ring
        _ ≤ (2 * F.hidden + 1) * 2 ^ (k + 1) * d :=
            Nat.mul_le_mul_right _ (Nat.mul_le_mul_right _ (Nat.le_succ _))
    exact ⟨le_of_lt strict, fun same => absurd same (ne_of_lt strict)⟩

end Nearest

/-- **Rounding finds the nearest code,** counted in half units. -/
theorem round_spec (fine : 0 < F.fractionBits) (positive : 0 < d) (n : Nat) :
    (∀ b, F.round n d = b + 1 → F.upperEnd b * d ≤ 2 * n ∧
      (2 * n = F.upperEnd b * d → F.round n d % 2 = 0)) ∧
    2 * n ≤ F.upperEnd (F.round n d) * d ∧
      (2 * n = F.upperEnd (F.round n d) * d → F.round n d % 2 = 0) := by
  obtain ⟨below, above⟩ := binade_spec (F := F) positive n
  have near := nearest_of_bounds positive below above
  rw [round_eq]
  exact ⟨fun b => near.before fine positive, near.behind fine⟩

/-- **Rounding a count of units.** -/
theorem round_rounds (fine : 0 < F.fractionBits) (positive : 0 < d) (n : Nat) :
    F.Rounds (n / d / 2 ^ F.scale) (F.round n d) := by
  obtain ⟨before, behind⟩ := round_spec fine positive n
  have denominator : (0 : ℚ) < d := by exact_mod_cast positive
  have clear (c : Nat) : F.middle c = ((F.upperEnd c * d : Nat) : ℚ) / (2 * d * 2 ^ F.scale) := by
    rw [middle, pow_succ]
    push_cast
    field_simp
  have whole : (n / d / 2 ^ F.scale : ℚ) = ((2 * n : Nat) : ℚ) / (2 * d * 2 ^ F.scale) := by
    push_cast
    field_simp
  have scale : (0 : ℚ) < 2 * d * 2 ^ F.scale := by positivity
  refine ⟨fun b same => ?_, ?_⟩
  · rw [clear, whole, div_le_div_iff_of_pos_right scale, div_left_inj' scale.ne']
    exact_mod_cast before b same
  · rw [clear, whole, div_le_div_iff_of_pos_right scale, div_left_inj' scale.ne']
    exact_mod_cast behind

end Format

end Retrieval
