/-
# Retrieval.Proofs.Binary.Unsigned -- numbers without a sign

A number without a sign is positive zero, a positive number or positive infinity.  Finite
floats have a difference that is a number, and the square of a number has no sign; sums
and square roots keep that.  So a sum of squared differences is never `nan` and never
negative, however many of its steps overflow (`Embedding.euclidean_isUnsigned`), and once
a running sum is infinite it stays so (`Embedding.euclidean_of_overflows`).

A finite float minus itself is positive zero whatever its sign, so an embedding is at
positive zero from itself (`Embedding.euclidean_self`).
-/
import Retrieval.Proofs.Binary.Zero

namespace Retrieval

set_option autoImplicit false

namespace Binary

variable {F : Format} {x y : Binary F}

/-- Positive zero, a positive number or positive infinity. -/
def IsUnsigned (x : Binary F) : Prop := ∃ code bounded, x = .number false code bounded

theorem isUnsigned_zero : (zero false : Binary F).IsUnsigned := ⟨0, _, rfl⟩

theorem isUnsigned_infinite : (infinite false : Binary F).IsUnsigned := ⟨F.infinity, _, rfl⟩

theorem isUnsigned_ofCode (code : Nat) : (ofCode false code : Binary F).IsUnsigned := ⟨_, _, rfl⟩

/-! ## Differences and squares -/

/-- **A finite float minus itself is positive zero.** -/
theorem sub_self (finite : x.isFinite = true) : x - x = zero false := by
  cases x with
  | nan => cases finite
  | number s a bounded =>
      have small : a ≠ F.infinity := Nat.ne_of_lt (of_decide_eq_true finite)
      show add (.number s a bounded) (.number (!s) a bounded) = zero false
      rw [add, if_neg small, if_neg small]
      cases s <;> simp [signed]

theorem sub_ne_nan (finiteX : x.isFinite = true) (finiteY : y.isFinite = true) :
    x - y ≠ .nan := by
  cases x with
  | nan => cases finiteX
  | number s a ha =>
      cases y with
      | nan => cases finiteY
      | number t b hb =>
          have smallA : a ≠ F.infinity := Nat.ne_of_lt (of_decide_eq_true finiteX)
          have smallB : b ≠ F.infinity := Nat.ne_of_lt (of_decide_eq_true finiteY)
          show add (.number s a ha) (.number (!t) b hb) ≠ .nan
          rw [add, if_neg smallA, if_neg smallB]
          dsimp only
          split
          · simp [zero]
          · simp [ofCode]

/-- **The square of a number has no sign.** -/
theorem mul_self_isUnsigned (some : 0 < F.exponentBits) (number : x ≠ .nan) :
    (x * x).IsUnsigned := by
  have positive := Format.infinity_pos some
  cases x with
  | nan => exact absurd rfl number
  | number s a bounded =>
      show (mul (.number s a bounded) (.number s a bounded)).IsUnsigned
      rw [mul, bne_self_eq_false]
      split
      · rename_i large
        rw [if_neg (by omega)]
        exact isUnsigned_infinite
      · exact isUnsigned_ofCode _

/-! ## Sums and roots -/

theorem IsUnsigned.add (unsignedX : x.IsUnsigned) (unsignedY : y.IsUnsigned) :
    (x + y).IsUnsigned := by
  obtain ⟨a, ha, rfl⟩ := unsignedX
  obtain ⟨b, hb, rfl⟩ := unsignedY
  show (Binary.add (.number false a ha) (.number false b hb)).IsUnsigned
  rw [Binary.add]
  split
  · rw [if_neg (fun opposite => opposite.2 rfl)]
    exact ⟨a, ha, rfl⟩
  · split
    · exact ⟨b, hb, rfl⟩
    · dsimp only
      split
      · exact isUnsigned_zero
      · have positive : decide (signed false (F.units a) + signed false (F.units b) < 0) = false :=
          decide_eq_false (by simp only [signed, Bool.false_eq_true, if_false]; omega)
        rw [positive]
        exact isUnsigned_ofCode _

/-- A sum starts from negative zero, which the first term takes away. -/
theorem IsUnsigned.negativeZero_add (some : 0 < F.exponentBits) (unsigned : y.IsUnsigned) :
    (zero true + y).IsUnsigned := by
  have positive := Format.infinity_pos some
  obtain ⟨b, hb, rfl⟩ := unsigned
  show (Binary.add (.number true 0 _) (.number false b hb)).IsUnsigned
  rw [Binary.add, if_neg (by omega)]
  split
  · exact ⟨b, hb, rfl⟩
  · dsimp only
    split
    · exact isUnsigned_zero
    · have positive : decide (signed true (F.units 0) + signed false (F.units b) < 0) = false :=
        decide_eq_false (by simp [signed])
      rw [positive]
      exact isUnsigned_ofCode _

/-- What is added to positive infinity does not count. -/
theorem IsUnsigned.infinite_add (unsigned : y.IsUnsigned) :
    infinite false + y = infinite false := by
  obtain ⟨b, hb, rfl⟩ := unsigned
  show Binary.add (.number false F.infinity _) (.number false b hb) = _
  rw [Binary.add, if_pos rfl, if_neg (fun opposite => opposite.2 rfl)]
  rfl

theorem IsUnsigned.eq_infinite (unsigned : x.IsUnsigned) (large : x.isInfinite = true) :
    x = infinite false := by
  obtain ⟨a, bounded, rfl⟩ := unsigned
  obtain rfl : a = F.infinity := of_decide_eq_true large
  rfl

theorem foldl_isUnsigned {terms : List (Binary F)} (unsigned : ∀ x ∈ terms, x.IsUnsigned)
    {start : Binary F} (begun : start.IsUnsigned) : (terms.foldl (· + ·) start).IsUnsigned := by
  induction terms generalizing start with
  | nil => exact begun
  | cons x terms ih =>
      obtain ⟨first, rest⟩ := List.forall_mem_cons.1 unsigned
      exact ih rest (begun.add first)

theorem foldl_infinite {terms : List (Binary F)} (unsigned : ∀ x ∈ terms, x.IsUnsigned) :
    terms.foldl (· + ·) (infinite false) = infinite false := by
  induction terms with
  | nil => rfl
  | cons x terms ih =>
      obtain ⟨first, rest⟩ := List.forall_mem_cons.1 unsigned
      rw [List.foldl_cons, first.infinite_add, ih rest]

/-- **A sum of something has no sign if its terms have none.** -/
theorem sum_isUnsigned (some : 0 < F.exponentBits) {terms : List (Binary F)} (nonempty : terms ≠ [])
    (unsigned : ∀ x ∈ terms, x.IsUnsigned) : (sum terms).IsUnsigned := by
  obtain ⟨x, terms, rfl⟩ := List.exists_cons_of_ne_nil nonempty
  obtain ⟨first, rest⟩ := List.forall_mem_cons.1 unsigned
  exact foldl_isUnsigned rest (first.negativeZero_add some)

/-- **A running sum that is infinite stays infinite.** -/
theorem sum_of_take_infinite (some : 0 < F.exponentBits) {terms : List (Binary F)}
    (unsigned : ∀ x ∈ terms, x.IsUnsigned) {n : Nat}
    (large : (sum (terms.take n)).isInfinite = true) : sum terms = infinite false := by
  have begun : terms.take n ≠ [] := by
    intro nothing
    have zero : (0 : Nat) = F.infinity := by
      rw [nothing] at large
      exact of_decide_eq_true large
    exact absurd zero (Nat.ne_of_lt (Format.infinity_pos some))
  have taken : (sum (terms.take n)).IsUnsigned :=
    sum_isUnsigned some begun fun x member => unsigned x (List.mem_of_mem_take member)
  have split : sum terms = (terms.drop n).foldl (· + ·) (sum (terms.take n)) := by
    rw [sum, sum, ← List.foldl_append, List.take_append_drop]
  rw [split, taken.eq_infinite large]
  exact foldl_infinite fun x member => unsigned x (List.mem_of_mem_drop member)

theorem IsUnsigned.sqrt (unsigned : x.IsUnsigned) : x.sqrt.IsUnsigned := by
  obtain ⟨a, bounded, rfl⟩ := unsigned
  rw [Binary.sqrt]
  split
  · exact ⟨a, bounded, rfl⟩
  · rw [if_neg Bool.false_ne_true]
    split
    · exact ⟨a, bounded, rfl⟩
    · exact isUnsigned_ofCode _

theorem sqrt_infinite (some : 0 < F.exponentBits) :
    (infinite false : Binary F).sqrt = infinite false := by
  rw [infinite, Binary.sqrt, if_neg (Nat.ne_of_gt (Format.infinity_pos some)),
    if_neg Bool.false_ne_true, if_pos rfl]

end Binary

namespace Embedding

variable {a b : Embedding}

/-- The squared differences of the components. -/
def squares (a b : Embedding) : List Binary32 :=
  List.zipWith (fun x y => (x - y) * (x - y)) a b

theorem euclidean_eq (a b : Embedding) : euclidean a b = (Binary.sum (squares a b)).sqrt := rfl

theorem squares_ne_nil (same : a.length = b.length) (nonempty : a ≠ []) : squares a b ≠ [] := by
  intro nothing
  have length := congrArg List.length nothing
  rw [squares, List.length_zipWith, ← same, Nat.min_self] at length
  exact nonempty (List.length_eq_zero_iff.1 length)

theorem squares_isUnsigned (finiteA : ∀ x ∈ a, x.isFinite = true)
    (finiteB : ∀ y ∈ b, y.isFinite = true) : ∀ x ∈ squares a b, x.IsUnsigned := by
  induction a generalizing b with
  | nil => exact fun x member => nomatch member
  | cons x a ih =>
      cases b with
      | nil => exact fun x member => nomatch member
      | cons y b =>
          obtain ⟨firstA, restA⟩ := List.forall_mem_cons.1 finiteA
          obtain ⟨firstB, restB⟩ := List.forall_mem_cons.1 finiteB
          refine List.forall_mem_cons.2 ⟨?_, ih restA restB⟩
          exact Binary.mul_self_isUnsigned (by decide) (Binary.sub_ne_nan firstA firstB)

/-- **A distance in space is a number without a sign.** -/
theorem euclidean_isUnsigned (same : a.length = b.length) (nonempty : a ≠ [])
    (finiteA : ∀ x ∈ a, x.isFinite = true) (finiteB : ∀ y ∈ b, y.isFinite = true) :
    (euclidean a b).IsUnsigned :=
  (Binary.sum_isUnsigned (by decide) (squares_ne_nil same nonempty)
    (squares_isUnsigned finiteA finiteB)).sqrt

/-- The sum of the squared differences overflows on the way. -/
def Overflows (a b : Embedding) : Prop :=
  ∃ n, (Binary.sum ((squares a b).take n)).isInfinite = true

/-- **A distance that overflows is positive infinity.** -/
theorem euclidean_of_overflows (finiteA : ∀ x ∈ a, x.isFinite = true)
    (finiteB : ∀ y ∈ b, y.isFinite = true) (overflows : Overflows a b) :
    euclidean a b = .infinite false := by
  obtain ⟨n, large⟩ := overflows
  rw [euclidean_eq,
    Binary.sum_of_take_infinite (by decide) (squares_isUnsigned finiteA finiteB) large]
  exact Binary.sqrt_infinite (by decide)

/-- **An embedding is at positive zero from itself.** -/
theorem euclidean_self (nonempty : a ≠ []) (finite : ∀ x ∈ a, x.isFinite = true) :
    euclidean a a = .zero false := by
  have square : ((.zero false : Binary32) * .zero false) = .zero false := by decide +kernel
  have squares : squares a a = a.map fun _ => .zero false := by
    rw [Embedding.squares, List.zipWith_self]
    exact List.map_congr_left fun x member => by rw [Binary.sub_self (finite x member), square]
  have stays (n : Nat) : (List.replicate n (.zero false : Binary32)).foldl (· + ·) (.zero false) =
      .zero false := by
    have sum : ((.zero false : Binary32) + .zero false) = .zero false := by decide +kernel
    induction n with
    | zero => rfl
    | succ n ih => rw [List.replicate_succ, List.foldl_cons, sum, ih]
  obtain ⟨x, a, rfl⟩ := List.exists_cons_of_ne_nil nonempty
  have first : ((.zero true : Binary32) + .zero false) = .zero false := by decide +kernel
  rw [euclidean_eq, squares, List.map_cons, Binary.sum, List.foldl_cons, first, List.map_const',
    stays]
  decide +kernel

end Embedding

end Retrieval
