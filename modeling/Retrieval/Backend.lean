/-
# Retrieval.Backend -- where a store keeps its embeddings

A backend is an index in memory or a collection on disk, chosen once.  The two
take the same operations; only a collection has something to flush.
-/
import Retrieval.Collection.Basic

namespace Retrieval

set_option autoImplicit false

/-- An index in memory or a collection on disk. -/
inductive Backend where
  | ephemeral (index : Index)
  | durable (collection : Collection)

namespace Backend

/-- Open a backend: a collection when there is a path, else an empty index. -/
def openAt (path : Option String) (asked : Header) (disk : Disk) :
    Disk × Except IndexError Backend :=
  match path with
  | none =>
      (disk, .ok (.ephemeral { metric := asked.metric, dimension := asked.dimension }))
  | some path =>
      let (disk, opened) := Collection.openAt path asked disk
      (disk, opened.map durable)

def index : Backend → Index
  | ephemeral index => index
  | durable collection => collection.index

/-- Whether the embeddings outlive the program. -/
def isDurable : Backend → Bool
  | ephemeral _ => false
  | durable _ => true

def kind (b : Backend) : String := if b.isDurable then "durable" else "ephemeral"

def path? : Backend → Option String
  | ephemeral _ => none
  | durable collection => some collection.path

/-- How many insertions are not on disk yet. -/
def pending : Backend → Nat
  | ephemeral _ => 0
  | durable collection => collection.pending.length

def insert (b : Backend) (id : DocumentId) (v : Embedding) : Except Embedding.Fault Backend :=
  match b with
  | ephemeral index => (index.insert id v).map ephemeral
  | durable collection => (collection.insert id v).map durable

def flush (b : Backend) (device : Device) (disk : Disk) :
    Disk × Backend × Option IndexError :=
  match b with
  | ephemeral index => (disk, ephemeral index, none)
  | durable collection =>
      let (disk, collection, failure) := collection.flushAt device disk
      (disk, durable collection, failure)

end Backend

end Retrieval
