/-
# Retrieval.Embedding -- vectors that may be stored and searched for

An embedding is a list of 32-bit floats.  It is *valid* for a dimension when it
has that many components, at least one, and all of them are finite.
`Embedding.fault?` names the first reason why one is not; main statement:
`Embedding.fault?_eq_none_iff`, that it names one exactly when there is one.
-/
import Retrieval.Binary.Basic

namespace Retrieval

set_option autoImplicit false

/-- A vector of 32-bit floats. -/
abbrev Embedding := List Binary32

namespace Embedding

/-! ## Validity -/

/-- Why an embedding cannot be stored or searched for. -/
inductive Fault where
  | empty
  | dimension (expected : UInt64) (got : Nat)
  | notFinite (index : Nat)
  deriving DecidableEq, Repr

def Fault.message : Fault → String
  | empty => "empty vector not allowed"
  | dimension expected got => s!"dimension mismatch: expected {expected}, got {got}"
  | notFinite index => s!"vector component {index} is not finite"

/-- The first fault of an embedding: being empty comes before having the wrong
length, and that before a component that is not finite. -/
def fault? (dimension : UInt64) (v : Embedding) : Option Fault :=
  if v.isEmpty then some .empty
  else if v.length ≠ dimension.toNat then some (.dimension dimension v.length)
  else (v.findIdx? fun x => !x.isFinite).map .notFinite

/-- An embedding without fault. -/
structure Valid (dimension : UInt64) (v : Embedding) : Prop where
  length_eq : v.length = dimension.toNat
  positive : v ≠ []
  finite : ∀ x ∈ v, x.isFinite = true

/-- The faults are complete: an embedding is valid exactly when it has none. -/
theorem fault?_eq_none_iff {dimension : UInt64} {v : Embedding} :
    fault? dimension v = none ↔ Valid dimension v := by
  unfold fault?
  constructor
  · intro h
    split at h
    · simp at h
    · rename_i hne
      split at h
      · simp at h
      · rename_i hlen
        refine ⟨by simpa using hlen, by simpa using hne, ?_⟩
        simpa [List.findIdx?_eq_none_iff] using h
  · rintro ⟨hlen, hne, hfin⟩
    simp [hne, hlen, List.findIdx?_eq_none_iff]
    exact hfin

end Embedding

end Retrieval
