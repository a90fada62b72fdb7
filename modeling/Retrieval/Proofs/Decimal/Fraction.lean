/-
# Retrieval.Proofs.Decimal.Fraction -- fractions next to each other

Two fractions are *adjacent* when their cross products differ by one.  What lies
strictly between them has a numerator at least as large as both numerators together
(`Adjacent.num_le_of_between`).  So three fractions, each adjacent to the next, leave
room for no others of a small numerator but multiples of the middle one
(`Neighbours.eq_mid`).

`Neighbours.around` finds three such fractions around a narrow interval, from the
continued fractions of its ends.  Nothing is proved about the search: what it finds is
checked.
-/
import Mathlib.Algebra.Order.Field.Basic
import Mathlib.Data.Rat.Cast.Order
import Mathlib.Tactic.FieldSimp
import Mathlib.RingTheory.Coprime.Lemmas
import Mathlib.Tactic.LinearCombination
import Mathlib.Tactic.Linarith

namespace Retrieval

set_option autoImplicit false

/-- A fraction of natural numbers, not in lowest terms. -/
structure Fraction where
  num : Nat
  den : Nat

namespace Fraction

variable {f g x : Fraction}

/-- The value, when the denominator is positive. -/
def quotient (f : Fraction) : ℚ := f.num / f.den

/-- The first fraction is less than the second. -/
def Before (f g : Fraction) : Prop := f.num * g.den < g.num * f.den

instance (f g : Fraction) : Decidable (f.Before g) :=
  inferInstanceAs (Decidable (f.num * g.den < g.num * f.den))

/-- The second fraction comes right behind the first. -/
def Adjacent (f g : Fraction) : Prop := g.num * f.den = f.num * g.den + 1

instance (f g : Fraction) : Decidable (f.Adjacent g) :=
  inferInstanceAs (Decidable (g.num * f.den = f.num * g.den + 1))

/-- The two fractions have one value. -/
def Same (f g : Fraction) : Prop := f.num * g.den = g.num * f.den

instance (f g : Fraction) : Decidable (f.Same g) :=
  inferInstanceAs (Decidable (f.num * g.den = g.num * f.den))

/-- The fraction times another. -/
def times (f : Fraction) (num den : Nat) : Fraction := ⟨f.num * num, f.den * den⟩

theorem times_quotient (f : Fraction) (num den : Nat) :
    (f.times num den).quotient = f.quotient * (num / den) := by
  rw [quotient, times, quotient]
  push_cast
  rw [div_mul_div_comm]

theorem same_iff (left : 0 < f.den) (right : 0 < g.den) :
    f.Same g ↔ f.quotient = g.quotient := by
  have left' : (f.den : ℚ) ≠ 0 := by exact_mod_cast left.ne'
  have right' : (g.den : ℚ) ≠ 0 := by exact_mod_cast right.ne'
  rw [Same, quotient, quotient, div_eq_div_iff left' right']
  exact_mod_cast Iff.rfl

theorem before_iff (left : 0 < f.den) (right : 0 < g.den) :
    f.Before g ↔ f.quotient < g.quotient := by
  have left' : (0 : ℚ) < f.den := by exact_mod_cast left
  have right' : (0 : ℚ) < g.den := by exact_mod_cast right
  rw [Before, quotient, quotient, div_lt_div_iff₀ left' right']
  exact_mod_cast Iff.rfl

/-- **Adjacent fractions have only large ones between them.** -/
theorem Adjacent.num_le_of_between (adjacent : f.Adjacent g) (after : f.Before x)
    (before : x.Before g) : f.num + g.num ≤ x.num := by
  -- the numerator is a sum of the two, with the cross differences as factors
  obtain ⟨a, toLeft⟩ := Nat.exists_eq_add_of_lt after
  obtain ⟨b, toRight⟩ := Nat.exists_eq_add_of_lt before
  have combined : x.num = f.num * (b + 1) + g.num * (a + 1) := by
    have one : g.num * f.den = f.num * g.den + 1 := adjacent
    zify at one toLeft toRight ⊢
    linear_combination (-x.num : ℤ) * one + (f.num : ℤ) * toRight + (g.num : ℤ) * toLeft
  rw [combined]
  exact Nat.add_le_add (Nat.le_mul_of_pos_right _ (Nat.succ_pos b))
    (Nat.le_mul_of_pos_right _ (Nat.succ_pos a))

theorem Adjacent.coprime (adjacent : f.Adjacent g) : Nat.Coprime g.num g.den := by
  have one : g.num * f.den = f.num * g.den + 1 := adjacent
  refine Nat.isCoprime_iff_coprime.1 ⟨f.den, -f.num, ?_⟩
  zify at one
  linear_combination one

end Fraction

/-! ## Three fractions in a row -/

/-- A fraction and one on either side of it. -/
structure Neighbours where
  low : Fraction
  mid : Fraction
  high : Fraction

namespace Neighbours

open Fraction

variable {N : Neighbours} {x : Fraction} {bound : Nat}

/-- Between the outer fractions, numerators below the bound are only found at the middle. -/
structure Isolate (N : Neighbours) (bound : Nat) : Prop where
  left : N.low.Adjacent N.mid
  right : N.mid.Adjacent N.high
  leftLarge : bound ≤ N.low.num + N.mid.num
  rightLarge : bound ≤ N.mid.num + N.high.num

instance (N : Neighbours) (bound : Nat) : Decidable (N.Isolate bound) :=
  decidable_of_iff (N.low.Adjacent N.mid ∧ N.mid.Adjacent N.high ∧
      bound ≤ N.low.num + N.mid.num ∧ bound ≤ N.mid.num + N.high.num)
    ⟨fun ⟨left, right, leftLarge, rightLarge⟩ => ⟨left, right, leftLarge, rightLarge⟩,
      fun h => ⟨h.left, h.right, h.leftLarge, h.rightLarge⟩⟩

/-- **Only multiples of the middle fraction are left.** -/
theorem Isolate.eq_mid (isolate : N.Isolate bound) (after : N.low.Before x)
    (before : x.Before N.high) (small : x.num < bound) :
    ∃ t, x.num = t * N.mid.num ∧ x.den = t * N.mid.den := by
  have same : x.num * N.mid.den = N.mid.num * x.den := by
    rcases Nat.lt_trichotomy (x.num * N.mid.den) (N.mid.num * x.den) with less | same | more
    · have large := isolate.left.num_le_of_between after less
      have := isolate.leftLarge
      omega
    · exact same
    · have large := isolate.right.num_le_of_between more before
      have := isolate.rightLarge
      omega
  have coprime := isolate.left.coprime
  obtain ⟨t, multiple⟩ : N.mid.num ∣ x.num := coprime.dvd_of_dvd_mul_right ⟨_, same⟩
  have positive : 0 < N.mid.num := by
    have one : N.mid.num * N.low.den = N.low.num * N.mid.den + 1 := isolate.left
    by_contra zero
    rw [Nat.eq_zero_of_not_pos zero, Nat.zero_mul] at one
    omega
  refine ⟨t, by rw [multiple, Nat.mul_comm], ?_⟩
  rw [multiple, Nat.mul_assoc] at same
  exact (Nat.eq_of_mul_eq_mul_left positive same).symm

/-! ## The search -/

/-- The simplest fraction above `a / b` and not above `c / d`, with the fraction before
it in the continued fraction. -/
def simplest : Nat → Nat → Nat → Nat → Nat → Fraction × Fraction
  | 0, _, _, _, _ => (⟨1, 1⟩, ⟨1, 0⟩)
  | steps + 1, a, b, c, d =>
      let q := a / b
      if (q + 1) * d ≤ c then (⟨q + 1, 1⟩, ⟨1, 0⟩)
      else
        let (found, before) := simplest steps d (c - q * d) b (a - q * b)
        (⟨q * found.num + found.den, found.num⟩, ⟨q * before.num + before.den, before.num⟩)

/-- Move a neighbour of the middle fraction towards it until no numerator below the
bound is left between them. -/
def approach (bound : Nat) (f mid : Fraction) : Fraction :=
  let t := (bound - f.num - 1) / mid.num
  ⟨f.num + t * mid.num, f.den + t * mid.den⟩

/-- The neighbours of the simplest fraction in an interval. -/
def around (bound a b c d : Nat) : Neighbours :=
  let (mid, before) := simplest 64 a b c d
  let rest : Fraction := ⟨mid.num - before.num, mid.den - before.den⟩
  if before.Before mid then ⟨approach bound before mid, mid, approach bound rest mid⟩
  else ⟨approach bound rest mid, mid, approach bound before mid⟩

end Neighbours

end Retrieval
