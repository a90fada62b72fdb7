/-
# Retrieval.Store.Basic -- documents with their embeddings

A store owns a table of documents and a backend, which share their numbers.  Its
metric and dimension are fixed when it is made.  Only embeddings outlive the
program: a store made on an old collection knows the embeddings of documents it
does not have.
-/
import Retrieval.Backend
import Retrieval.Embedder

namespace Retrieval

set_option autoImplicit false

/-! ## Errors -/

/-- Why an operation of a store failed. -/
inductive StoreError where
  | configMismatch (message : String)
  | invalidArgument (message : String)
  | embedding (e : EmbedderError)
  | backend (e : IndexError)
  deriving DecidableEq, Repr

namespace StoreError

def message : StoreError → String
  | configMismatch message => s!"Configuration mismatch: {message}"
  | invalidArgument message => s!"Invalid argument: {message}"
  | embedding e => s!"Embedding failed: {e.message}"
  | backend e => s!"Backend failed: {e.message}"

/-- An embedding that is not valid is an invalid argument. -/
def ofFault (f : Embedding.Fault) : StoreError := invalidArgument f.message

/-- A disagreement about the configuration and an embedding that is not valid
are faults of the caller; anything else is one of the backend. -/
def ofIndexError : IndexError → StoreError
  | .configMismatch message => configMismatch message
  | .fault f => ofFault f
  | e => backend e

end StoreError

/-! ## Options -/

/-- How a store is to be made.  Without a dimension the embedder is asked once;
without a path the embeddings stay in memory. -/
structure Options where
  metric : Metric := .cosine
  dimension : Option UInt64 := none
  path : Option String := none
  deriving DecidableEq

namespace Options

instance : Inhabited Options := ⟨{}⟩

def withMetric (o : Options) (metric : Metric) : Options := { o with metric }

def withDimension (o : Options) (dimension : UInt64) : Options :=
  { o with dimension := some dimension }

def withPath (o : Options) (path : String) : Options := { o with path := some path }

end Options

/-! ## The store -/

structure Store where
  metric : Metric
  dimension : UInt64
  path : Option String
  documents : Documents := {}
  backend : Backend

/-- What a store works on besides itself: the embedder's state and the disk. -/
structure World (σ : Type) where
  service : σ
  disk : Disk := {}

namespace Store

variable {σ : Type}

/-- The text that is embedded to find out the dimension. -/
def probe : String := "test"

def size (s : Store) : Nat := s.documents.size

def backendSize (s : Store) : Nat := s.backend.index.size

/-- How many embeddings are not on disk yet. -/
def pending (s : Store) : Nat := s.backend.pending

/-- The dimension to use: the one that is asked for, or that of the probe. -/
def resolveDimension (e : Embedder σ) (o : Options) (service : σ) :
    Except StoreError UInt64 × σ :=
  match o.dimension with
  | some dimension => (.ok dimension, service)
  | none =>
      match e.one probe service with
      | (.error e, service) => (.error (.embedding e), service)
      | (.ok v, service) => (.ok (UInt64.ofNat v.length), service)

def create (e : Embedder σ) (o : Options) (w : World σ) : Except StoreError Store × World σ :=
  match resolveDimension e o w.service with
  | (.error e, service) => (.error e, { w with service })
  | (.ok dimension, service) =>
      if dimension = 0 then
        (.error (.invalidArgument "vector dimension must be positive"), { w with service })
      else
        match Backend.openAt o.path { dimension, metric := o.metric } w.disk with
        | (disk, .error e) => (.error (.ofIndexError e), { service, disk })
        | (disk, .ok backend) =>
            (.ok { metric := o.metric, dimension, path := o.path, backend }, { service, disk })

end Store

end Retrieval
