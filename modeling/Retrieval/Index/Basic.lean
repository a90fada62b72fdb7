/-
# Retrieval.Index.Basic -- exact search in memory

An index maps numbers to embeddings of one dimension and finds the nearest to a
query by looking at every one of them.  Hits are ordered by their distance in
the ranking order, where `nan` comes last; the sort is stable and meets the
entries in ascending order of their numbers, so hits in the same place come in
ascending order too.
-/
import Retrieval.Metric
import Retrieval.Document
import Retrieval.Index.Error

namespace Retrieval

set_option autoImplicit false

/-- A number with its distance from a query. -/
abbrev Hit := DocumentId × Binary32

namespace Hit

/-- The first hit is at least as close as the second. -/
def before (a b : Hit) : Bool := Binary.ranksBefore a.2 b.2

end Hit

/-- Embeddings by number, with the metric and the dimension they share. -/
structure Index where
  metric : Metric
  dimension : UInt64
  vectors : Entries DocumentId Embedding := []

namespace Index

def size (index : Index) : Nat := index.vectors.length

def get? (index : Index) (id : DocumentId) : Option Embedding := Entries.get? id index.vectors

/-- Put an embedding under a number, over an older one. -/
def insert (index : Index) (id : DocumentId) (v : Embedding) : Except Embedding.Fault Index :=
  match v.fault? index.dimension with
  | some f => .error f
  | none => .ok { index with vectors := Entries.insert id v index.vectors }

/-- Every accepted number with its distance from the query, in order of the numbers. -/
def candidates (index : Index) (query : Embedding) (accept : DocumentId → Bool) : List Hit :=
  (index.vectors.filter fun entry => accept entry.1).map fun entry =>
    (entry.1, index.metric.distance query entry.2)

/-- The `k` accepted numbers nearest to the query, the nearest first. -/
def search (index : Index) (query : Embedding) (k : Nat)
    (accept : DocumentId → Bool := fun _ => true) : Except Embedding.Fault (List Hit) :=
  match query.fault? index.dimension with
  | some f => .error f
  | none => .ok (((index.candidates query accept).mergeSort Hit.before).take k)

end Index

end Retrieval
