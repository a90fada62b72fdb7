/-
# Retrieval.Store.Search -- finding documents

The query is embedded with a single call, the backend finds the nearest numbers,
and each number is joined with its document.  A number without a document is a
hit that is dropped; the report says which.  A filter is applied before the
nearest are chosen, to the documents the store knows, so it never costs a place
among the `k`.
-/
import Retrieval.Store.Basic

namespace Retrieval

set_option autoImplicit false

/-- What a search found, before and after joining numbers with documents. -/
structure Report where
  hits : List Hit
  found : List (Document × Binary32)
  dropped : List DocumentId

/-- Whether every hit has a document. -/
def Report.isComplete (r : Report) : Bool := r.dropped.isEmpty

namespace Store

variable {σ : Type}

def join (s : Store) (hits : List Hit) : Report where
  hits := hits
  found := hits.filterMap fun hit => (s.documents.get? hit.1).map fun d => (d, hit.2)
  dropped := (hits.filter fun hit => (s.documents.get? hit.1).isNone).map Prod.fst

/-- The numbers that a filter leaves as candidates. -/
def candidate (s : Store) (filter : Option Filter) (id : DocumentId) : Bool :=
  match filter with
  | none => true
  | some filter =>
      match s.documents.get? id with
      | none => false
      | some d => filter.accepts d.metadata

/-- The documents nearest to an embedding. -/
def nearest (s : Store) (query : Embedding) (k : Nat) (filter : Option Filter) :
    Except StoreError Report :=
  match query.fault? s.dimension with
  | some f => .error (.ofFault f)
  | none =>
      match s.backend.index.search query k (s.candidate filter) with
      | .error f => .error (.ofFault f)
      | .ok hits => .ok (s.join hits)

def noResults : StoreError := .invalidArgument "k must be at least 1"

/-- The `k` documents nearest to a query, with the report. -/
def search (e : Embedder σ) (s : Store) (query : String) (k : Nat) (filter : Option Filter)
    (service : σ) : Except StoreError Report × σ :=
  if k = 0 then (.error noResults, service)
  else
    match e.one query service with
    | (.error e, service) => (.error (.embedding e), service)
    | (.ok v, service) => (s.nearest v k filter, service)

/-- One search for each query, with all queries embedded in one batch. -/
def searchBatch (e : Embedder σ) (s : Store) (queries : List String) (k : Nat)
    (service : σ) : Except StoreError (List (List (Document × Binary32))) × σ :=
  if k = 0 then (.error noResults, service)
  else if queries.isEmpty then (.ok [], service)
  else
    match e.batch queries service with
    | (.error e, service) => (.error (.embedding e), service)
    | (.ok vectors, service) =>
        match vectors.findSome? fun v => v.fault? s.dimension with
        | some f => (.error (.ofFault f), service)
        | none => (vectors.mapM fun v => (s.nearest v k none).map Report.found, service)

end Store

end Retrieval
