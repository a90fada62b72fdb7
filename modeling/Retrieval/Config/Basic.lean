/-
# Retrieval.Config.Basic -- what can be configured

A configuration says which service makes the embeddings, where they are kept, and
how many documents a search finds.  Every part has a default.
-/
import Retrieval.Ollama.Basic
import Retrieval.Store.Basic

namespace Retrieval

set_option autoImplicit false

/-- The service that makes the embeddings; without a dimension it is asked. -/
structure EmbeddingConfig where
  model : String := "nomic-embed-text"
  baseUrl : String := "http://localhost:11434"
  dimension : Option UInt64 := none
  deriving DecidableEq, Repr

/-- Where embeddings are kept: in memory, or on disk at a path. -/
inductive StorageMode where
  | ephemeral
  | durable (path : String)
  deriving DecidableEq, Repr

def StorageMode.path? : StorageMode → Option String
  | ephemeral => none
  | durable path => some path

/-- Where embeddings are kept, and how they are compared. -/
structure StorageConfig where
  mode : StorageMode := .ephemeral
  metric : Metric := .cosine
  deriving DecidableEq, Repr

/-- How many documents a search finds. -/
structure SearchConfig where
  topK : UInt64 := 4
  deriving DecidableEq, Repr

structure Config where
  embedding : EmbeddingConfig := {}
  storage : StorageConfig := {}
  search : SearchConfig := {}
  deriving DecidableEq, Repr

namespace Config

instance : Inhabited Config := ⟨{}⟩

def options (c : Config) : Options where
  metric := c.storage.metric
  dimension := c.embedding.dimension
  path := c.storage.mode.path?

def client (c : Config) : Ollama.Client := .ofAddress c.embedding.baseUrl c.embedding.model

end Config

namespace Store

variable {σ : Type}

def ofConfig (e : Embedder σ) (c : Config) (w : World σ) : Except StoreError Store × World σ :=
  create e c.options w

end Store

end Retrieval
