/-
# Retrieval.Proofs.Entries -- ordered entries are a normal form of maps

The operations keep the ascending order of the keys (`Entries.insert_ordered`).  In
that order an entry stands in the list exactly when it is what the look-up finds
(`mem_iff_get?`), and two lists that answer every look-up alike are one list
(`ext_of_get?`): how a map came to be cannot be seen from it.

`Entries.putAll` is the map after a list of insertions; it is looked up from the
last of them backwards (`get?_putAll`).
-/
import Retrieval.Entries

namespace Retrieval

set_option autoImplicit false

namespace Entries

section Lookup

variable {κ α : Type} [DecidableEq κ]

@[simp] theorem get?_nil (k : κ) : get? k ([] : Entries κ α) = none := rfl

theorem get?_cons (k j : κ) (w : α) (rest : Entries κ α) :
    get? k ((j, w) :: rest) = if k = j then some w else get? k rest := rfl

theorem get?_append (k : κ) (s t : Entries κ α) :
    get? k (s ++ t) = (get? k s).or (get? k t) := by
  induction s with
  | nil => simp
  | cons entry s ih =>
      obtain ⟨j, w⟩ := entry
      simp only [List.cons_append, get?_cons]
      split
      · rfl
      · exact ih

/-- What is found stands in the list. -/
theorem mem_of_get? {k : κ} {v : α} {entries : Entries κ α} (found : get? k entries = some v) :
    (k, v) ∈ entries := by
  induction entries with
  | nil => simp at found
  | cons entry rest ih =>
      obtain ⟨j, w⟩ := entry
      rw [get?_cons] at found
      split at found
      · rename_i same
        cases found
        simp [same]
      · exact List.mem_cons_of_mem _ (ih found)

/-- Taking out a key leaves everything else. -/
theorem get?_erase (k k' : κ) (entries : Entries κ α) :
    get? k' (erase k entries) = if k' = k then none else get? k' entries := by
  induction entries with
  | nil => simp [erase]
  | cons entry rest ih =>
      obtain ⟨j, w⟩ := entry
      unfold erase at ih ⊢
      by_cases taken : j = k
      · subst taken
        simp only [ne_eq, not_true_eq_false, decide_false, Bool.false_eq_true, not_false_eq_true,
          List.filter_cons_of_neg, ih, get?_cons]
        split <;> rfl
      · simp only [ne_eq, taken, not_false_eq_true, decide_true, List.filter_cons_of_pos,
          get?_cons, ih]
        by_cases here : k' = j
        · simp [here, taken]
        · simp [here]

end Lookup

/-! ## Order -/

section Order

variable {κ α : Type} [LT κ] [DecidableLT κ] [DecidableEq κ]

set_option linter.unusedSectionVars false

theorem ordered_nil : Ordered ([] : Entries κ α) := List.Pairwise.nil

theorem mem_insert {k : κ} {v : α} {entry : κ × α} {entries : Entries κ α}
    (member : entry ∈ insert k v entries) : entry = (k, v) ∨ entry ∈ entries := by
  induction entries with
  | nil => simpa [insert] using member
  | cons head rest ih =>
      obtain ⟨j, w⟩ := head
      simp only [insert] at member
      split at member
      · simpa using member
      · split at member
        · rcases List.mem_cons.1 member with here | later
          · exact .inl here
          · exact .inr (List.mem_cons_of_mem _ later)
        · rcases List.mem_cons.1 member with here | later
          · exact .inr (by simp [here])
          · exact (ih later).imp_right (List.mem_cons_of_mem _)

variable [Std.Irrefl (α := κ) (· < ·)] [Std.Trichotomous (α := κ) (· < ·)]
  [Trans (α := κ) (β := κ) (γ := κ) (· < ·) (· < ·) (· < ·)]

/-- Of two insertions under one key only the second counts. -/
theorem insert_insert (k : κ) (v w : α) (entries : Entries κ α) :
    insert k w (insert k v entries) = insert k w entries := by
  induction entries with
  | nil => simp [insert, Std.lt_irrefl]
  | cons head rest ih =>
      obtain ⟨j, x⟩ := head
      simp only [insert]
      split
      · simp [insert, Std.lt_irrefl]
      · split
        · simp [insert, Std.lt_irrefl]
        · rename_i notLess different
          simp [insert, notLess, different, ih]

theorem insert_ordered {k : κ} {v : α} {entries : Entries κ α} (ordered : Ordered entries) :
    Ordered (insert k v entries) := by
  induction entries with
  | nil => exact List.pairwise_singleton _ _
  | cons head rest ih =>
      obtain ⟨j, w⟩ := head
      obtain ⟨above, restOrdered⟩ := List.pairwise_cons.1 ordered
      simp only [insert]
      split
      · rename_i less
        refine List.pairwise_cons.2 ⟨fun entry member => ?_, ordered⟩
        rcases List.mem_cons.1 member with rfl | later
        · exact less
        · exact Std.lt_trans less (above entry later)
      · split
        · rename_i same
          subst same
          exact List.pairwise_cons.2 ⟨above, restOrdered⟩
        · rename_i notLess different
          have greater : j < k :=
            ((Std.lt_trichotomy k j).resolve_left notLess).resolve_left different
          refine List.pairwise_cons.2 ⟨fun entry member => ?_, ih restOrdered⟩
          rcases mem_insert member with rfl | old
          · exact greater
          · exact above entry old

/-- In the order of the keys an entry is there exactly when it is found. -/
theorem mem_iff_get? {k : κ} {v : α} {entries : Entries κ α} (ordered : Ordered entries) :
    (k, v) ∈ entries ↔ get? k entries = some v := by
  refine ⟨fun member => ?_, mem_of_get?⟩
  induction entries with
  | nil => simp at member
  | cons head rest ih =>
      obtain ⟨j, w⟩ := head
      obtain ⟨above, restOrdered⟩ := List.pairwise_cons.1 ordered
      rw [get?_cons]
      rcases List.mem_cons.1 member with here | later
      · cases here
        simp
      · have different : k ≠ j := by
          intro same
          subst same
          exact Std.lt_irrefl (above (k, v) later)
        rw [if_neg different]
        exact ih restOrdered later

/-- A key below all others is not found further on. -/
theorem get?_eq_none_of_below {k : κ} {entries : Entries κ α}
    (below : ∀ entry ∈ entries, k < entry.1) : get? k entries = none := by
  cases found : get? k entries with
  | none => rfl
  | some v => exact absurd (below _ (mem_of_get? found)) Std.lt_irrefl

/-- **A map has one list of entries.**  Lists in order that answer every look-up
alike are equal. -/
theorem ext_of_get? {s t : Entries κ α} (orderedS : Ordered s) (orderedT : Ordered t)
    (same : ∀ k, get? k s = get? k t) : s = t := by
  induction s generalizing t with
  | nil =>
      cases t with
      | nil => rfl
      | cons head rest =>
          have := same head.1
          rw [get?_cons, if_pos rfl] at this
          cases this
  | cons headS restS ih =>
      obtain ⟨j, w⟩ := headS
      obtain ⟨aboveS, orderedS'⟩ := List.pairwise_cons.1 orderedS
      cases t with
      | nil =>
          have := same j
          rw [get?_cons, if_pos rfl] at this
          cases this
      | cons headT restT =>
          obtain ⟨i, x⟩ := headT
          obtain ⟨aboveT, orderedT'⟩ := List.pairwise_cons.1 orderedT
          -- a smaller head would be found in one list only
          have sameKey : j = i := by
            rcases Std.lt_trichotomy j i with less | equal | greater
            · have := same j
              have below : ∀ entry ∈ restT, j < entry.1 :=
                fun entry member => Std.lt_trans less (aboveT entry member)
              rw [get?_cons, if_pos rfl, get?_cons, if_neg (fun e => Std.lt_irrefl (e ▸ less)),
                get?_eq_none_of_below below] at this
              cases this
            · exact equal
            · have := same i
              have below : ∀ entry ∈ restS, i < entry.1 :=
                fun entry member => Std.lt_trans greater (aboveS entry member)
              rw [get?_cons, if_neg (fun e => Std.lt_irrefl (e ▸ greater)), get?_cons, if_pos rfl,
                get?_eq_none_of_below below] at this
              cases this
          subst sameKey
          have sameValue : w = x := by simpa [get?_cons] using same j
          subst sameValue
          have sameRest : restS = restT := by
            refine ih orderedS' orderedT' fun k => ?_
            by_cases head : k = j
            · subst head
              rw [get?_eq_none_of_below aboveS, get?_eq_none_of_below aboveT]
            · simpa [get?_cons, head] using same k
          rw [sameRest]

end Order

/-! ## Insertions in a row -/

section PutAll

variable {κ α : Type} [LT κ] [DecidableLT κ] [DecidableEq κ]

/-- The map after insertions in a row. -/
def putAll (pairs : List (κ × α)) (entries : Entries κ α) : Entries κ α :=
  pairs.foldl (fun map pair => insert pair.1 pair.2 map) entries

@[simp] theorem putAll_nil (entries : Entries κ α) : putAll [] entries = entries := rfl

@[simp] theorem putAll_cons (k : κ) (v : α) (pairs : List (κ × α)) (entries : Entries κ α) :
    putAll ((k, v) :: pairs) entries = putAll pairs (insert k v entries) := rfl

theorem putAll_append (s t : List (κ × α)) (entries : Entries κ α) :
    putAll (s ++ t) entries = putAll t (putAll s entries) := by
  simp [putAll, List.foldl_append]

/-- What stands in the list was there, or it was put in. -/
theorem mem_putAll {entry : κ × α} {pairs : List (κ × α)} {entries : Entries κ α}
    (member : entry ∈ putAll pairs entries) : entry ∈ pairs ∨ entry ∈ entries := by
  induction pairs generalizing entries with
  | nil => exact .inr member
  | cons pair pairs ih =>
      rcases ih member with later | before
      · exact .inl (List.mem_cons_of_mem _ later)
      · rcases mem_insert before with rfl | old
        · exact .inl List.mem_cons_self
        · exact .inr old

/-- Of the insertions under one key the last one counts. -/
theorem get?_putAll (k : κ) (pairs : List (κ × α)) (entries : Entries κ α) :
    get? k (putAll pairs entries) = (get? k pairs.reverse).or (get? k entries) := by
  induction pairs generalizing entries with
  | nil => simp
  | cons pair pairs ih =>
      obtain ⟨j, w⟩ := pair
      rw [putAll_cons, ih, get?_insert, List.reverse_cons, get?_append, Option.or_assoc]
      congr 1
      rw [get?_cons]
      split <;> simp

theorem putAll_ordered [Std.Irrefl (α := κ) (· < ·)] [Std.Trichotomous (α := κ) (· < ·)]
    [Trans (α := κ) (β := κ) (γ := κ) (· < ·) (· < ·) (· < ·)]
    {entries : Entries κ α} (ordered : Ordered entries) (pairs : List (κ × α)) :
    Ordered (putAll pairs entries) := by
  induction pairs generalizing entries with
  | nil => exact ordered
  | cons pair pairs ih => exact ih (insert_ordered ordered)

end PutAll

end Entries

end Retrieval
