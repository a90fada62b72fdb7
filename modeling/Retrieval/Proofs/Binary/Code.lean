/-
# Retrieval.Proofs.Binary.Code -- significands, steps and midpoints

A code is a significand in a binade (`Format.InBinade`): it stands for `m * 2 ^ k`
units, where `m` has one bit more than a fraction, and the next code stands for
`2 ^ k` units more.  Every count `m * 2 ^ k` with so short an `m` has a code
(`Format.exists_units_eq`).

Halfway between a code and the next is a *midpoint*.  Measured in half units it is
`(2 * m + 1) * 2 ^ k` (`upperEnd_eq`), and the ends of the interval of a code are the
midpoints before and behind it (`lowerEnd_succ`).  No interval is narrow: its upper end
is at most `2 * hidden` times its width (`upperEnd_succ_le`).
-/
import Mathlib.Algebra.Order.Ring.Nat
import Mathlib.Tactic.Ring
import Retrieval.Decimal.Shortest

namespace Retrieval

set_option autoImplicit false

namespace Format

variable (F : Format) {code m k : Nat}

theorem hidden_eq : F.hidden = 2 ^ F.fractionBits := by
  rw [hidden, Nat.one_shiftLeft]

theorem hidden_pos : 0 < F.hidden := by
  rw [hidden_eq]
  exact Nat.two_pow_pos _

/-! ## Significands -/

/-- The code is the significand `m` in the binade `k`, which the subnormal numbers share
with the first normal ones. -/
structure InBinade (code m k : Nat) : Prop where
  code_eq : code = k * F.hidden + m
  below : m < 2 * F.hidden
  normal : k = 0 ∨ F.hidden ≤ m

/-- The step from a code to the next, in units. -/
def gap (code : Nat) : Nat := 2 ^ (code / F.hidden - 1)

variable {F}

theorem gap_pos (code : Nat) : 0 < F.gap code := Nat.two_pow_pos _

theorem exists_inBinade (code : Nat) : ∃ m k, F.InBinade code m k := by
  have positive := F.hidden_pos
  have split := Nat.div_add_mod code F.hidden
  have rest := Nat.mod_lt code positive
  by_cases subnormal : code < F.hidden
  · exact ⟨code, 0, by rw [Nat.zero_mul, Nat.zero_add], by omega, .inl rfl⟩
  · have binade : 0 < code / F.hidden := Nat.div_pos (Nat.le_of_not_lt subnormal) positive
    refine ⟨F.hidden + code % F.hidden, code / F.hidden - 1, ?_, by omega, .inr (by omega)⟩
    obtain ⟨k, same⟩ : ∃ k, code / F.hidden = k + 1 := ⟨code / F.hidden - 1, by omega⟩
    rw [same] at split ⊢
    rw [Nat.add_sub_cancel]
    calc code = F.hidden * (k + 1) + code % F.hidden := split.symm
      _ = k * F.hidden + (F.hidden + code % F.hidden) := by ring

namespace InBinade

theorem div_eq (h : F.InBinade code m k) (normal : F.hidden ≤ m) : code / F.hidden = k + 1 := by
  have below := h.below
  rw [h.code_eq, Nat.div_eq_of_lt_le]
  · calc (k + 1) * F.hidden = k * F.hidden + F.hidden := by ring
      _ ≤ k * F.hidden + m := by omega
  · calc k * F.hidden + m < k * F.hidden + 2 * F.hidden := by omega
      _ = (k + 1 + 1) * F.hidden := by ring

theorem mod_eq (h : F.InBinade code m k) (normal : F.hidden ≤ m) :
    F.hidden + code % F.hidden = m := by
  have split := Nat.div_add_mod code F.hidden
  rw [h.div_eq normal, h.code_eq] at split
  have same : F.hidden * (k + 1) = k * F.hidden + F.hidden := by ring
  rw [h.code_eq]
  omega

theorem gap_eq (h : F.InBinade code m k) : F.gap code = 2 ^ k := by
  by_cases normal : F.hidden ≤ m
  · rw [gap, h.div_eq normal, Nat.add_sub_cancel]
  · obtain rfl := h.normal.resolve_right normal
    have subnormal : code < F.hidden := by rw [h.code_eq]; omega
    rw [gap, Nat.div_eq_of_lt subnormal]

/-- **The count of units of a code.** -/
theorem units_eq (h : F.InBinade code m k) : F.units code = m * 2 ^ k := by
  by_cases normal : F.hidden ≤ m
  · have notSmall : ¬ code < F.hidden := by
      rw [h.code_eq]
      omega
    rw [units, if_neg notSmall, h.div_eq normal, h.mod_eq normal, Nat.shiftLeft_eq,
      Nat.add_sub_cancel]
  · obtain rfl := h.normal.resolve_right normal
    have same : code = m := by rw [h.code_eq, Nat.zero_mul, Nat.zero_add]
    rw [units, if_pos (by omega), same, Nat.pow_zero, Nat.mul_one]

/-- The next code, in the same binade or first in the next one. -/
theorem succ (h : F.InBinade code m k) :
    F.InBinade (code + 1) (m + 1) k ∨ m + 1 = 2 * F.hidden ∧
      F.InBinade (code + 1) F.hidden (k + 1) := by
  have below := h.below
  have positive := F.hidden_pos
  by_cases last : m + 1 = 2 * F.hidden
  · refine .inr ⟨last, ?_, by omega, .inr (Nat.le_refl _)⟩
    calc code + 1 = k * F.hidden + (m + 1) := by rw [h.code_eq]; omega
      _ = (k + 1) * F.hidden + F.hidden := by rw [last]; ring
  · refine .inl ⟨by rw [h.code_eq]; omega, by omega, ?_⟩
    exact h.normal.imp_right fun normal => by omega

end InBinade

/-- **The next code stands for one step more.** -/
theorem units_succ (code : Nat) : F.units (code + 1) = F.units code + F.gap code := by
  obtain ⟨m, k, here⟩ := F.exists_inBinade code
  rw [here.units_eq, here.gap_eq]
  rcases here.succ with next | ⟨last, next⟩
  · rw [next.units_eq]
    ring
  · rw [next.units_eq]
    calc F.hidden * 2 ^ (k + 1) = (2 * F.hidden) * 2 ^ k := by ring
      _ = m * 2 ^ k + 2 ^ k := by rw [← last]; ring

theorem units_strictMono : StrictMono F.units :=
  strictMono_nat_of_lt_succ fun code => by
    rw [units_succ]
    exact Nat.lt_add_of_pos_right (gap_pos code)

@[simp] theorem units_zero : F.units 0 = 0 := by
  rw [units, if_pos F.hidden_pos]

theorem gap_mono {a b : Nat} (le : a ≤ b) : F.gap a ≤ F.gap b :=
  Nat.pow_le_pow_right (by decide) (Nat.sub_le_sub_right (Nat.div_le_div_right le) 1)

/-- From the first normal code on, a step is a small part of the count. -/
theorem gap_mul_hidden_le (normal : F.hidden ≤ code) : F.gap code * F.hidden ≤ F.units code := by
  obtain ⟨m, k, here⟩ := F.exists_inBinade code
  have significand : F.hidden ≤ m := by
    rcases here.normal with rfl | large
    · rwa [here.code_eq, Nat.zero_mul, Nat.zero_add] at normal
    · exact large
  rw [here.gap_eq, here.units_eq, Nat.mul_comm]
  exact Nat.mul_le_mul_right _ significand

/-- A step is at most twice the step before. -/
theorem gap_succ_le (code : Nat) : F.gap (code + 1) ≤ 2 * F.gap code := by
  obtain ⟨m, k, here⟩ := F.exists_inBinade code
  rw [here.gap_eq]
  rcases here.succ with next | ⟨-, next⟩
  · rw [next.gap_eq]
    omega
  · rw [next.gap_eq, Nat.pow_succ]
    omega

/-- **Every count with a short significand has a code.** -/
theorem exists_units_eq (short : m < 2 * F.hidden) (k : Nat) :
    ∃ code, F.units code = m * 2 ^ k := by
  induction k generalizing m with
  | zero =>
      have here : F.InBinade m m 0 := ⟨by omega, short, .inl rfl⟩
      exact ⟨m, here.units_eq⟩
  | succ k ih =>
      by_cases normal : F.hidden ≤ m
      · have here : F.InBinade ((k + 1) * F.hidden + m) m (k + 1) := ⟨rfl, short, .inr normal⟩
        exact ⟨_, here.units_eq⟩
      · -- a subnormal significand can be doubled
        obtain ⟨code, same⟩ := ih (m := 2 * m) (by omega)
        exact ⟨code, by rw [same]; ring⟩

/-! ## Midpoints -/

theorem upperEnd_eq' (code : Nat) : F.upperEnd code = 2 * F.units code + F.gap code := by
  rw [upperEnd, units_succ]
  ring

/-- **A midpoint has one bit more than the codes beside it.** -/
theorem InBinade.upperEnd_eq (h : F.InBinade code m k) :
    F.upperEnd code = (2 * m + 1) * 2 ^ k := by
  rw [upperEnd_eq', h.units_eq, h.gap_eq]
  ring

/-- The lower end of an interval is the midpoint before it. -/
theorem lowerEnd_succ (code : Nat) : F.lowerEnd (code + 1) = F.upperEnd code := rfl

theorem upperEnd_succ (code : Nat) :
    F.upperEnd (code + 1) = F.upperEnd code + (F.gap code + F.gap (code + 1)) := by
  rw [upperEnd_eq', upperEnd_eq', units_succ]
  ring

theorem upperEnd_strictMono : StrictMono F.upperEnd :=
  strictMono_nat_of_lt_succ fun code => by
    rw [upperEnd_succ]
    exact Nat.lt_add_of_pos_right (Nat.add_pos_left (gap_pos code) _)

/-- A midpoint is less than `4 * hidden` steps away from zero. -/
theorem upperEnd_lt_mul_gap (code : Nat) : F.upperEnd code < 4 * F.hidden * F.gap code := by
  obtain ⟨m, k, here⟩ := F.exists_inBinade code
  have below := here.below
  rw [here.upperEnd_eq, here.gap_eq]
  exact Nat.mul_lt_mul_of_pos_right (by omega) (Nat.two_pow_pos k)

/-- **No interval is narrow,** compared with where it ends. -/
theorem upperEnd_succ_le (code : Nat) :
    F.upperEnd (code + 1) ≤ 2 * F.hidden * (F.gap code + F.gap (code + 1)) := by
  obtain ⟨m, k, here⟩ := F.exists_inBinade code
  have hidden := F.hidden_pos
  rcases here.succ with next | ⟨last, next⟩
  · -- both steps are `2 ^ k`
    have below := next.below
    rw [next.upperEnd_eq, here.gap_eq, next.gap_eq]
    calc (2 * (m + 1) + 1) * 2 ^ k ≤ (4 * F.hidden) * 2 ^ k :=
          Nat.mul_le_mul_right _ (by omega)
      _ = 2 * F.hidden * (2 ^ k + 2 ^ k) := by ring
  · -- the second step is twice the first
    rw [next.upperEnd_eq, here.gap_eq, next.gap_eq]
    calc (2 * F.hidden + 1) * 2 ^ (k + 1) = (4 * F.hidden + 2) * 2 ^ k := by ring
      _ ≤ (6 * F.hidden) * 2 ^ k := Nat.mul_le_mul_right _ (by omega)
      _ = 2 * F.hidden * (2 ^ k + 2 ^ (k + 1)) := by ring

end Format

end Retrieval
