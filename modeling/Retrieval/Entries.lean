/-
# Retrieval.Entries -- finite maps as ordered lists of entries

A finite map is the list of its entries in ascending order of the keys, each key
once.  The order makes the list a normal form: two such lists with the same
look-ups are the same list.  So the one type serves for the fields of a JSON
object, the content of a directory and the vectors of an index, and in each of
them "in order of the key" is the order in which the entries are met.

`Entries.insert` puts a value under a key, over the old one if there is one.
Main statement: `get?_insert`, which says exactly what an insertion changes.
-/

namespace Retrieval

set_option autoImplicit false

/-- The entries of a finite map, in ascending order of the keys. -/
abbrev Entries (κ α : Type) := List (κ × α)

namespace Entries

variable {κ α : Type} [LT κ] [DecidableLT κ] [DecidableEq κ]

def insert (k : κ) (v : α) : Entries κ α → Entries κ α
  | [] => [(k, v)]
  | (k', v') :: rest =>
      if k < k' then (k, v) :: (k', v') :: rest
      else if k = k' then (k, v) :: rest
      else (k', v') :: insert k v rest

def erase (k : κ) (entries : Entries κ α) : Entries κ α :=
  entries.filter fun entry => entry.1 ≠ k

/-- The map of a list of entries in any order; of a repeated key the last entry counts. -/
def ofList (entries : List (κ × α)) : Entries κ α :=
  entries.foldl (fun map entry => insert entry.1 entry.2 map) []

/-- The keys ascend strictly. -/
def Ordered (entries : Entries κ α) : Prop := entries.Pairwise fun a b => a.1 < b.1

def get? (k : κ) : Entries κ α → Option α
  | [] => none
  | (j, w) :: rest => if k = j then some w else get? k rest

/-- An insertion changes what is under its key and nothing else. -/
theorem get?_insert (k k' : κ) (v : α) (entries : Entries κ α) :
    get? k' (insert k v entries) = if k' = k then some v else get? k' entries := by
  induction entries with
  | nil => simp [insert, get?]
  | cons entry rest ih =>
      obtain ⟨j, w⟩ := entry
      simp only [insert]
      split
      · simp [get?]
      · split
        · rename_i h; subst h
          simp only [get?]; split <;> rfl
        · rename_i h
          simp only [get?, ih]
          by_cases hj : k' = j
          · subst hj; simp [Ne.symm h]
          · simp [hj]

end Entries

end Retrieval
