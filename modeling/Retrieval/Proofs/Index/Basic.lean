/-
# Retrieval.Proofs.Index.Basic -- what insertions do to an index

An accepted insertion overlays the index with one entry and a refused one changes
nothing, so insertions in a row overlay it with those that are valid for its
dimension (`Index.offerAll_eq`).  Metric and dimension stay, and under a number the
index holds what was accepted last (`get?_overlay`).
-/
import Retrieval.Index.Basic
import Retrieval.Proofs.Entries

namespace Retrieval

set_option autoImplicit false

namespace Index

/-- The index with more entries, put in one after the other. -/
def overlay (index : Index) (pairs : List (DocumentId × Embedding)) : Index :=
  { index with vectors := Entries.putAll pairs index.vectors }

@[simp] theorem overlay_metric (index : Index) (pairs : List (DocumentId × Embedding)) :
    (index.overlay pairs).metric = index.metric := rfl

@[simp] theorem overlay_dimension (index : Index) (pairs : List (DocumentId × Embedding)) :
    (index.overlay pairs).dimension = index.dimension := rfl

@[simp] theorem overlay_nil (index : Index) : index.overlay [] = index := rfl

theorem overlay_cons (index : Index) (pair : DocumentId × Embedding)
    (pairs : List (DocumentId × Embedding)) :
    index.overlay (pair :: pairs) = (index.overlay [pair]).overlay pairs := rfl

theorem overlay_append (index : Index) (s t : List (DocumentId × Embedding)) :
    index.overlay (s ++ t) = (index.overlay s).overlay t := by
  simp [overlay, Entries.putAll_append]

/-- Under a number is what was put there last. -/
theorem get?_overlay (index : Index) (pairs : List (DocumentId × Embedding)) (id : DocumentId) :
    (index.overlay pairs).get? id = (Entries.get? id pairs.reverse).or (index.get? id) :=
  Entries.get?_putAll id pairs index.vectors

/-! ## Insertions -/

theorem insert_of_valid {index : Index} {v : Embedding} (id : DocumentId)
    (valid : v.fault? index.dimension = none) :
    index.insert id v = .ok (index.overlay [(id, v)]) := by
  simp [insert, valid, overlay]

theorem insert_of_fault {index : Index} {v : Embedding} {f : Embedding.Fault} (id : DocumentId)
    (fault : v.fault? index.dimension = some f) : index.insert id v = .error f := by
  simp [insert, fault]

/-- The index after an insertion that may be refused. -/
def offer (index : Index) (pair : DocumentId × Embedding) : Index :=
  match index.insert pair.1 pair.2 with
  | .ok after => after
  | .error _ => index

/-- The index after insertions in a row, each of which may be refused. -/
def offerAll (index : Index) (pairs : List (DocumentId × Embedding)) : Index :=
  pairs.foldl offer index

/-- The insertions that an index of this dimension accepts. -/
def accepted (dimension : UInt64) (pairs : List (DocumentId × Embedding)) :
    List (DocumentId × Embedding) :=
  pairs.filter fun pair => pair.2.fault? dimension = none

/-- Insertions in a row overlay the index with those that are accepted. -/
theorem offerAll_eq (index : Index) (pairs : List (DocumentId × Embedding)) :
    index.offerAll pairs = index.overlay (accepted index.dimension pairs) := by
  induction pairs generalizing index with
  | nil => rfl
  | cons pair pairs ih =>
      rw [show index.offerAll (pair :: pairs) = (index.offer pair).offerAll pairs from rfl]
      cases fault : pair.2.fault? index.dimension with
      | none =>
          have step : index.offer pair = index.overlay [pair] := by
            simp [offer, insert_of_valid pair.1 fault]
          rw [step, ih, overlay_dimension, ← overlay_append]
          simp [accepted, fault]
      | some f =>
          have step : index.offer pair = index := by simp [offer, insert_of_fault pair.1 fault]
          rw [step, ih]
          simp [accepted, fault]

/-- The entries of an index are in ascending order of their numbers. -/
def Ordered (index : Index) : Prop := Entries.Ordered index.vectors

theorem overlay_ordered {index : Index} (ordered : index.Ordered)
    (pairs : List (DocumentId × Embedding)) : (index.overlay pairs).Ordered :=
  Entries.putAll_ordered ordered pairs

/-- Indexes of one metric and one dimension that hold the same are equal. -/
theorem ext_of_get? {s t : Index} (metric : s.metric = t.metric)
    (dimension : s.dimension = t.dimension) (orderedS : s.Ordered) (orderedT : t.Ordered)
    (same : ∀ id, s.get? id = t.get? id) : s = t := by
  cases s
  cases t
  cases metric
  cases dimension
  congr 1
  exact Entries.ext_of_get? orderedS orderedT same

end Index

end Retrieval
