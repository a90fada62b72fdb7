/-
# Retrieval.Embedder -- who turns texts into embeddings

An embedder turns one text or a batch of texts into embeddings, or fails.  It
has a state, which each call may change, so what an embedder was asked can be
seen in its state and nowhere else: a call that leaves the state alone was not
made.  An embedder without a batch call of its own embeds the texts one after
the other and stops at the first failure.
-/
import Retrieval.Embedding

namespace Retrieval

set_option autoImplicit false

inductive EmbedderError where
  | request (message : String)
  | undecodable (message : String)
  | api (message : String)
  | noEmbeddings
  | countMismatch (expected got : Nat)
  | other (message : String)
  deriving DecidableEq, Repr

def EmbedderError.message : EmbedderError → String
  | request message => s!"HTTP request failed: {message}"
  | undecodable message => s!"JSON parsing failed: {message}"
  | api message => s!"API error: {message}"
  | noEmbeddings => "No embeddings returned"
  | countMismatch expected got => s!"Expected {expected} embeddings, got {got}"
  | other message => s!"Embedder error: {message}"

/-- An embedder with states in `σ`. -/
structure Embedder (σ : Type) where
  name : String
  one : String → σ → Except EmbedderError Embedding × σ
  many : List String → σ → Except EmbedderError (List Embedding) × σ

namespace Embedder

variable {σ : Type}

/-- Embed texts one after the other, up to the first failure. -/
def inTurn (one : String → σ → Except EmbedderError Embedding × σ) :
    List String → σ → Except EmbedderError (List Embedding) × σ
  | [], s => (.ok [], s)
  | text :: rest, s =>
      match one text s with
      | (.error e, s) => (.error e, s)
      | (.ok v, s) =>
          match inTurn one rest s with
          | (.error e, s) => (.error e, s)
          | (.ok vs, s) => (.ok (v :: vs), s)

/-- The embedder that has a call for single texts only. -/
def ofOne (one : String → σ → Except EmbedderError Embedding × σ) : Embedder σ where
  name := "embedder"
  one := one
  many := inTurn one

/-- Embed a batch and insist on one embedding for each text. -/
def batch (e : Embedder σ) (texts : List String) (s : σ) :
    Except EmbedderError (List Embedding) × σ :=
  match e.many texts s with
  | (.error e, s) => (.error e, s)
  | (.ok vs, s) =>
      if vs.length = texts.length then (.ok vs, s)
      else (.error (.countMismatch texts.length vs.length), s)

end Embedder

end Retrieval
