/-
# Retrieval.Proofs.Yaml.Price -- what reading from a source costs

References are what a reading has to pay for, since only so many may be followed.
Whatever a reading gives, it gives at a price that does not depend on how much is left
(`Reading.IsMetered`): with less it fails, and with more it does the same.  So the price
of a whole is the sum of the prices of its parts (`Reading.Costs.bind_inv`), and whoever
reads parts of a document only, each of them once, can afford it where the whole document
could be read.
-/
import Retrieval.Yaml.Source

namespace Retrieval

set_option autoImplicit false

namespace Yaml

namespace Source

namespace Reading

variable {α β : Type} {read x : Reading α} {f : α → Reading β} {a : α} {b : β} {k n r : Nat}

/-! ## Prices -/

/-- A reading gives `a` at the price `k`. -/
def Costs (read : Reading α) (a : α) (k : Nat) : Prop :=
  ∀ n, read.run n = if k ≤ n then some (a, n - k) else none

/-- A reading has a price for what it gives. -/
def IsMetered (read : Reading α) : Prop :=
  ∀ n a r, read.run n = some (a, r) → ∃ k, Costs read a k

theorem Costs.run_of_le (costs : Costs read a k) (le : k ≤ n) :
    read.run n = some (a, n - k) := by rw [costs n, if_pos le]

/-- Who got something paid its price. -/
theorem Costs.of_run (costs : Costs read a k) {b : α} (given : read.run n = some (b, r)) :
    a = b ∧ r + k = n := by
  rw [costs n] at given
  split at given
  · cases given
    exact ⟨rfl, by omega⟩
  · cases given

theorem costs_pure (a : α) : Costs (pure a) a 0 := by
  intro n
  simp

/-- The price of one reading after another is the sum of theirs. -/
theorem Costs.bind {i j : Nat} (first : Costs x a i) (second : Costs (f a) b j) :
    Costs (x >>= f) b (i + j) := by
  intro n
  rw [StateT.run_bind, first n]
  by_cases enough : i ≤ n
  · rw [if_pos enough]
    refine (second (n - i)).trans ?_
    by_cases more : j ≤ n - i
    · rw [if_pos more, if_pos (by omega), Nat.sub_sub]
    · rw [if_neg more, if_neg (by omega)]
  · rw [if_neg enough, if_neg (by omega)]
    rfl

theorem isMetered_pure (a : α) : IsMetered (pure a) := by
  intro n b r given
  cases given
  exact ⟨0, costs_pure a⟩

theorem isMetered_failure : IsMetered (failure : Reading α) := by
  intro n b r given
  cases given

theorem IsMetered.bind (first : IsMetered x) (second : ∀ a, IsMetered (f a)) :
    IsMetered (x >>= f) := by
  intro n b r given
  rw [StateT.run_bind] at given
  obtain ⟨⟨a, left⟩, gave, then_⟩ := Option.bind_eq_some_iff.1 given
  obtain ⟨i, costs⟩ := first n a left gave
  obtain ⟨j, costs'⟩ := second a left b r then_
  exact ⟨i + j, costs.bind costs'⟩

/-- **What was paid for the whole was paid for its parts.** -/
theorem Costs.bind_inv (costs : Costs (x >>= f) b k) (first : IsMetered x)
    (second : ∀ a, IsMetered (f a)) :
    ∃ a i j, Costs x a i ∧ Costs (f a) b j ∧ i + j = k := by
  have given := costs.run_of_le (Nat.le_refl k)
  rw [StateT.run_bind] at given
  obtain ⟨⟨a, left⟩, gave, then_⟩ := Option.bind_eq_some_iff.1 given
  obtain ⟨i, costsFirst⟩ := first k a left gave
  obtain ⟨j, costsSecond⟩ := second a left b _ then_
  have paidFirst := (costsFirst.of_run gave).2
  have paidSecond := (costsSecond.of_run then_).2
  exact ⟨a, i, j, costsFirst, costsSecond, by omega⟩

theorem isMetered_mapM {γ : Type} {g : γ → Reading α} (each : ∀ c, IsMetered (g c))
    (cs : List γ) : IsMetered (cs.mapM g) := by
  induction cs with
  | nil =>
      rw [List.mapM_nil]
      exact isMetered_pure []
  | cons c cs ih =>
      rw [List.mapM_cons]
      exact (each c).bind fun a => ih.bind fun rest => isMetered_pure (a :: rest)

/-- What nothing is paid for is what there is. -/
theorem costs_pure_iff {c : α} : Costs (pure a) c k ↔ a = c ∧ k = 0 := by
  constructor
  · intro costs
    have given : (pure a : Reading α).run k = some (a, k) := rfl
    obtain ⟨same, paid⟩ := costs.of_run given
    exact ⟨same.symm, by omega⟩
  · rintro ⟨rfl, rfl⟩
    exact costs_pure a

theorem not_costs_failure : ¬ Costs (failure : Reading α) a k := by
  intro costs
  have given := costs.run_of_le (Nat.le_refl k)
  cases given

end Reading

open Reading

variable {s : Source}

/-! ## References -/

/-- The node that a node stands for. -/
def settle (s : Source) : Linked → Linked
  | .reference n => s.target n
  | node => node

/-- What a node costs: a reference is one, anything else nothing. -/
def toll : Linked → Nat
  | .reference _ => 1
  | _ => 0

theorem costs_follow (s : Source) (node : Linked) :
    Costs (s.follow node) (s.settle node) (toll node) := by
  intro n
  cases node with
  | reference name =>
      cases n with
      | zero => rfl
      | succ n => rfl
  | _ => rfl

theorem isMetered_follow (s : Source) (node : Linked) : IsMetered (s.follow node) := by
  intro n a r given
  have same := ((costs_follow s node).of_run given).1
  exact ⟨_, same ▸ costs_follow s node⟩

/-! ## Replacing references -/

/-- A field with its references replaced. -/
def expandField (s : Source) (d : Nat) (field : Linked × Linked) : Reading (Tree × Tree) := do
  return (← s.expand d field.1, ← s.expand d field.2)

/-- The tree of a node that was followed. -/
def grow (s : Source) : Nat → Linked → Reading Tree
  | _, .scalar p style text => pure (.scalar { tag := p.tag } style text)
  | d + 1, .sequence p items => do return .sequence { tag := p.tag } (← items.mapM (s.expand d))
  | d + 1, .mapping p fields => do
      return .mapping { tag := p.tag } (← fields.mapM (s.expandField d))
  | _, _ => failure

theorem expand_eq (s : Source) (d : Nat) (node : Linked) :
    s.expand d node = s.follow node >>= s.grow d := by
  cases d with
  | zero =>
      unfold expand
      refine congrArg (s.follow node >>= ·) (funext fun met => ?_)
      cases met <;> rfl
  | succ d =>
      unfold expand
      refine congrArg (s.follow node >>= ·) (funext fun met => ?_)
      cases met <;> rfl

theorem isMetered_grow {d : Nat}
    (deeper : ∀ e, e < d → ∀ node, IsMetered (s.expand e node)) (node : Linked) :
    IsMetered (s.grow d node) := by
  cases d with
  | zero =>
      cases node with
      | scalar p style text => exact isMetered_pure _
      | _ => exact isMetered_failure
  | succ d =>
      have below := deeper d (Nat.lt_succ_self d)
      cases node with
      | reference name => exact isMetered_failure
      | scalar p style text => exact isMetered_pure _
      | sequence p items => exact (isMetered_mapM below items).bind fun _ => isMetered_pure _
      | mapping p fields =>
          refine IsMetered.bind (isMetered_mapM (fun field => ?_) fields) fun _ => isMetered_pure _
          exact (below field.1).bind fun _ => (below field.2).bind fun _ => isMetered_pure _

/-- **Replacing references has a price.** -/
theorem isMetered_expand (s : Source) (d : Nat) (node : Linked) :
    IsMetered (s.expand d node) := by
  induction d using Nat.strongRecOn generalizing node with
  | ind d ih =>
      rw [expand_eq]
      exact (isMetered_follow s node).bind (isMetered_grow ih)

theorem isMetered_expandField (s : Source) (d : Nat) (field : Linked × Linked) :
    IsMetered (s.expandField d field) :=
  (isMetered_expand s d field.1).bind fun _ =>
    (isMetered_expand s d field.2).bind fun _ => isMetered_pure _

end Source

end Yaml

end Retrieval
