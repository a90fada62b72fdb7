/-
# Retrieval.Proofs.Index.Guarded -- distances are asked for where they are meant

A distance is meant for two embeddings of one length that is not zero, with finite
components (`Embedding.Comparable`).  `Index.searchBy` is a search that asks a measure for
each distance, and nothing comes of it when the measure gives nothing.

The metric is a measure, and so is the metric with an assertion (`Metric.guarded`), which
gives nothing unless the distance is meant; both give the distances that are meant
(`Metric.IsGivenBy`).  When every stored embedding is valid, a search by any such measure
is the search: the query is checked before anything is measured (`Index.searchBy_eq`).
-/
import Retrieval.Proofs.Index.Basic

namespace Retrieval

set_option autoImplicit false

namespace Embedding

/-- Embeddings of one length that is not zero, with finite components. -/
structure Comparable (a b : Embedding) : Prop where
  length_eq : a.length = b.length
  nonempty : a ≠ []
  finite_left : ∀ x ∈ a, x.isFinite = true
  finite_right : ∀ x ∈ b, x.isFinite = true

instance (a b : Embedding) : Decidable (Comparable a b) :=
  decidable_of_iff
    (a.length = b.length ∧ a ≠ [] ∧ (∀ x ∈ a, x.isFinite = true) ∧ ∀ x ∈ b, x.isFinite = true)
    ⟨fun ⟨length_eq, nonempty, left, right⟩ => ⟨length_eq, nonempty, left, right⟩,
      fun ⟨length_eq, nonempty, left, right⟩ => ⟨length_eq, nonempty, left, right⟩⟩

theorem Valid.comparable {dimension : UInt64} {a b : Embedding} (valid : a.Valid dimension)
    (other : b.Valid dimension) : Comparable a b :=
  ⟨valid.length_eq.trans other.length_eq.symm, valid.positive, valid.finite, other.finite⟩

end Embedding

/-- What gives the distance of two embeddings, or nothing. -/
abbrev Measure := Embedding → Embedding → Option Binary32

namespace Metric

/-- The measure gives the distances that are meant. -/
def IsGivenBy (metric : Metric) (measure : Measure) : Prop :=
  ∀ a b, Embedding.Comparable a b → measure a b = some (metric.distance a b)

/-- The metric, where it is meant. -/
def guarded (metric : Metric) : Measure := fun a b =>
  if Embedding.Comparable a b then some (metric.distance a b) else none

theorem isGivenBy_guarded (metric : Metric) : metric.IsGivenBy metric.guarded :=
  fun _ _ comparable => if_pos comparable

end Metric

/-- When each step gives something, so do all of them. -/
theorem mapM_eq_some_map {α β : Type} {f : α → Option β} {g : α → β} {xs : List α}
    (each : ∀ x ∈ xs, f x = some (g x)) : xs.mapM f = some (xs.map g) := by
  induction xs with
  | nil => rfl
  | cons x xs ih =>
      obtain ⟨first, later⟩ := List.forall_mem_cons.1 each
      rw [List.mapM_cons, first, ih later]
      rfl

namespace Index

variable {index : Index} {measure : Measure}

/-- Every accepted number with what is measured for it, in order of the numbers. -/
def candidatesBy (measure : Measure) (index : Index) (query : Embedding)
    (accept : DocumentId → Bool) : Option (List Hit) :=
  (index.vectors.filter fun entry => accept entry.1).mapM fun entry =>
    (measure query entry.2).map fun distance => (entry.1, distance)

/-- The `k` accepted numbers nearest to the query by a measure, the nearest first. -/
def searchBy (measure : Measure) (index : Index) (query : Embedding) (k : Nat)
    (accept : DocumentId → Bool) : Option (Except Embedding.Fault (List Hit)) :=
  match query.fault? index.dimension with
  | some f => some (.error f)
  | none =>
      (index.candidatesBy measure query accept).map fun hits =>
        .ok ((hits.mergeSort Hit.before).take k)

/-- **An index of valid embeddings asks for no distance that is not meant.** -/
theorem searchBy_eq (valid : ∀ entry ∈ index.vectors, entry.2.Valid index.dimension)
    (given : index.metric.IsGivenBy measure) (query : Embedding) (k : Nat)
    (accept : DocumentId → Bool) :
    index.searchBy measure query k accept = some (index.search query k accept) := by
  unfold searchBy search
  cases fault : query.fault? index.dimension with
  | some f => rfl
  | none =>
      have asked : query.Valid index.dimension := Embedding.fault?_eq_none_iff.1 fault
      have candidates : index.candidatesBy measure query accept =
          some (index.candidates query accept) := by
        apply mapM_eq_some_map
        intro entry member
        rw [given query entry.2 (asked.comparable (valid entry (List.mem_filter.1 member).1))]
        rfl
      dsimp only
      rw [candidates]
      rfl

end Index

end Retrieval
