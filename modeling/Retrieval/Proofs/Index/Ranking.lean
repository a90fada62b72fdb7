/-
# Retrieval.Proofs.Index.Ranking -- the total order of hits

`Binary.Before` is the total order of floats said by sign and magnitude: numbers
come before `nan`, negative numbers before positive ones, and of two numbers of
one sign the magnitudes decide.  The keys that the ranking compares are this order
(`Binary.ranksBefore_iff`).  Hits are in the order of their distances and, in the
same place, of their numbers (`Hit.Precedes`).

The sort of hits is stable.  So when the hits arrive in ascending order of their
numbers, what leaves is in strict order (`Hit.sorted_pairwise`), and it makes no
difference whether some of them are taken out before or after (`Hit.sorted_filter`).
-/
import Retrieval.Index.Basic

namespace Retrieval

set_option autoImplicit false

/-! ## Two places in a list -/

section Pair

variable {α : Type} {a b : α} {l : List α}

/-- Of two different members one stands before the other. -/
theorem pair_sublist_or (memberA : a ∈ l) (memberB : b ∈ l) (different : a ≠ b) :
    [a, b].Sublist l ∨ [b, a].Sublist l := by
  induction l with
  | nil => simp at memberA
  | cons x l ih =>
      rcases List.mem_cons.1 memberA with rfl | laterA
      · have laterB := (List.mem_cons.1 memberB).resolve_left (Ne.symm different)
        exact .inl (.cons_cons _ (List.singleton_sublist.2 laterB))
      · rcases List.mem_cons.1 memberB with rfl | laterB
        · exact .inr (.cons_cons _ (List.singleton_sublist.2 laterA))
        · exact (ih laterA laterB).imp (.cons _) (.cons _)

/-- In a list without repetition only one of two members stands before the other. -/
theorem pair_sublist_asymm (distinct : l.Nodup) (ab : [a, b].Sublist l)
    (ba : [b, a].Sublist l) : False := by
  induction l with
  | nil => cases ab
  | cons x l ih =>
      obtain ⟨fresh, distinct⟩ := List.nodup_cons.1 distinct
      cases ab with
      | cons _ ab =>
          cases ba with
          | cons _ ba => exact ih distinct ab ba
          | cons_cons _ ba => exact fresh (ab.subset (by simp))
      | cons_cons _ ab =>
          cases ba with
          | cons _ ba => exact fresh (ba.subset (by simp))
          | cons_cons _ ba => exact fresh (ab.subset (by simp))

end Pair

namespace Binary

variable {F : Format}

/-- The total order of floats, strictly. -/
def Before : Binary F → Binary F → Prop
  | .nan, _ => False
  | .number .., .nan => True
  | .number true a _, .number true b _ => b < a
  | .number true _ _, .number false _ _ => True
  | .number false _ _, .number true _ _ => False
  | .number false a _, .number false b _ => a < b

/-- The ranking compares by the total order. -/
theorem ranksBefore_iff (x y : Binary F) : ranksBefore x y = true ↔ x.Before y ∨ x = y := by
  cases x with
  | nan => cases y <;> simp [ranksBefore, rankKey, Before]
  | number s a ha =>
      cases y with
      | nan => simp [ranksBefore, rankKey, Before]
      | number t b hb =>
          cases s <;> cases t
          all_goals simp [ranksBefore, rankKey, Before]
          all_goals omega

theorem Before.asymm {x y : Binary F} (xy : x.Before y) : ¬ y.Before x := by
  intro yx
  cases x with
  | nan => exact xy
  | number s a _ =>
      cases y with
      | nan => exact yx
      | number t b _ =>
          cases s <;> cases t
          all_goals simp only [Before] at xy yx
          all_goals omega

theorem ranksBefore_trans (x y z : Binary F) (xy : ranksBefore x y = true)
    (yz : ranksBefore y z = true) : ranksBefore x z = true := by
  cases x <;> cases y <;> cases z
  all_goals simp only [ranksBefore, rankKey, decide_eq_true_eq, reduceCtorEq] at *
  all_goals omega

theorem ranksBefore_total (x y : Binary F) :
    (ranksBefore x y || ranksBefore y x) = true := by
  cases x <;> cases y <;> simp only [ranksBefore, rankKey, Bool.or_eq_true, decide_eq_true_eq,
    or_true, true_or, or_self]
  omega

end Binary

namespace Hit

/-- A hit comes strictly before another: by the distances, then by the numbers. -/
def Precedes (a b : Hit) : Prop := a.2.Before b.2 ∨ a.2 = b.2 ∧ a.1 < b.1

theorem Precedes.asymm {a b : Hit} (ab : a.Precedes b) : ¬ b.Precedes a := by
  intro ba
  rcases ab with strict | ⟨same, less⟩
  · rcases ba with strict' | ⟨same', -⟩
    · exact strict.asymm strict'
    · rw [same'] at strict
      exact strict.asymm strict
  · rcases ba with strict' | ⟨-, less'⟩
    · rw [same] at strict'
      exact strict'.asymm strict'
    · exact Std.lt_irrefl (Std.lt_trans less less')

theorem before_trans (a b c : Hit) (ab : before a b = true) (bc : before b c = true) :
    before a c = true :=
  Binary.ranksBefore_trans a.2 b.2 c.2 ab bc

theorem before_total (a b : Hit) : (before a b || before b a) = true :=
  Binary.ranksBefore_total a.2 b.2

/-- **Sorting hits that arrive in order of their numbers puts them in strict order.** -/
theorem sorted_pairwise {hits : List Hit} (ascending : hits.Pairwise fun a b => a.1 < b.1) :
    (hits.mergeSort before).Pairwise Precedes := by
  have distinct : (hits.mergeSort before).Nodup := by
    refine (List.mergeSort_perm hits before).nodup_iff.2 (ascending.imp ?_)
    rintro a _ less rfl
    exact Std.lt_irrefl less
  refine List.pairwise_iff_forall_sublist.2 fun {a b} sorted => ?_
  have ordered : before a b = true :=
    List.pairwise_iff_forall_sublist.1
      (List.pairwise_mergeSort before_trans before_total hits) sorted
  rcases (Binary.ranksBefore_iff a.2 b.2).1 ordered with strict | same
  · exact .inl strict
  · refine .inr ⟨same, ?_⟩
    -- in the same place, so the sort keeps the order of arrival
    have different : a ≠ b := by
      rintro rfl
      simpa using distinct.sublist sorted
    have arrived {c : Hit} (member : c ∈ [a, b]) : c ∈ hits :=
      List.mem_mergeSort.1 (sorted.subset member)
    rcases pair_sublist_or (arrived (by simp)) (arrived (by simp)) different with ab | ba
    · exact List.pairwise_iff_forall_sublist.1 ascending ab
    · have backwards : before b a = true :=
        (Binary.ranksBefore_iff b.2 a.2).2 (.inr same.symm)
      have kept := List.pair_sublist_mergeSort before_trans before_total backwards ba
      exact (pair_sublist_asymm distinct sorted kept).elim

/-- **Sorting a part of the hits gives the part of the sorted hits.** -/
theorem sorted_filter {hits : List Hit} (ascending : hits.Pairwise fun a b => a.1 < b.1)
    (keep : Hit → Bool) :
    (hits.filter keep).mergeSort before = (hits.mergeSort before).filter keep := by
  have part : (hits.filter keep).Pairwise fun a b => a.1 < b.1 := ascending.filter keep
  have same : ((hits.filter keep).mergeSort before).Perm ((hits.mergeSort before).filter keep) :=
    (List.mergeSort_perm _ before).trans ((List.mergeSort_perm hits before).filter keep).symm
  -- both are in strict order, and a set of hits can be put in strict order in one way only
  refine same.eq_of_pairwise ?_ (sorted_pairwise part) ((sorted_pairwise ascending).filter keep)
  intro a b _ _ ab ba
  exact (ab.asymm ba).elim

end Hit

end Retrieval
