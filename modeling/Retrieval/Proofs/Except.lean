/-
# Retrieval.Proofs.Except -- how an answer came about

An answer that was put together from steps is taken apart again: it succeeds when every step
does, and then with what the last one gives, and it fails as the first step that fails.
-/
import Mathlib.Data.List.Forall2

namespace Retrieval

set_option autoImplicit false

variable {α β ε ε' : Type} {x : Except ε α} {a : α} {b : β} {e : ε}

theorem bind_eq_ok_iff {f : α → Except ε β} :
    x >>= f = .ok b ↔ ∃ a, x = .ok a ∧ f a = .ok b := by
  cases x <;> simp [bind, Except.bind]

theorem bind_eq_error_iff {f : α → Except ε β} :
    x >>= f = .error e ↔ x = .error e ∨ ∃ a, x = .ok a ∧ f a = .error e := by
  cases x <;> simp [bind, Except.bind]

theorem map_eq_ok_iff {f : α → β} : x.map f = .ok b ↔ ∃ a, x = .ok a ∧ f a = b := by
  cases x <;> simp [Except.map]

theorem exists_map_eq_ok_iff {f : α → β} : (∃ b, x.map f = .ok b) ↔ ∃ a, x = .ok a := by
  cases x <;> simp [Except.map]

theorem mapError_eq_ok_iff {f : ε → ε'} : x.mapError f = .ok a ↔ x = .ok a := by
  cases x <;> simp [Except.mapError]

theorem mapError_eq_error_iff {f : ε → ε'} {e' : ε'} :
    x.mapError f = .error e' ↔ ∃ e, x = .error e ∧ f e = e' := by
  cases x <;> simp [Except.mapError]

/-! ## What may be missing -/

section Missing

variable {found : Option α} {e' : ε}

theorem getD_eq_ok_iff : (found.map Except.ok).getD (.error e) = .ok a ↔ found = some a := by
  cases found <;> simp

theorem getD_eq_error_iff :
    (found.map Except.ok).getD (.error e) = .error e' ↔ found = none ∧ e = e' := by
  cases found <;> simp

end Missing

/-! ## One step for every element -/

theorem mapM_eq_ok_iff {f : α → Except ε β} {xs : List α} {ys : List β} :
    xs.mapM f = .ok ys ↔ List.Forall₂ (fun x y => f x = .ok y) xs ys := by
  induction xs generalizing ys with
  | nil => simp [pure, Except.pure, eq_comm]
  | cons x xs ih =>
      simp only [List.mapM_cons, bind_eq_ok_iff, pure, Except.pure, Except.ok.injEq,
        List.forall₂_cons_left_iff, ih]
      constructor
      · rintro ⟨y, first, rest, later, rfl⟩
        exact ⟨y, rest, first, later, rfl⟩
      · rintro ⟨y, rest, first, later, rfl⟩
        exact ⟨y, first, rest, later, rfl⟩

end Retrieval
