/-
# Retrieval.Ollama.Message -- what is sent to the embedding service and comes back

A request names a model and carries one text or a batch, a response carries the
embeddings.  Both are JSON objects.  One text is a string and a batch is an
array of strings, so a batch of one is not the same request as one text.
-/
import Retrieval.Embedding
import Retrieval.Json.Printer
import Retrieval.Json.Reading

namespace Retrieval

set_option autoImplicit false

namespace Ollama

/-! ## Requests -/

/-- What is to be embedded. -/
inductive Input where
  | one (text : String)
  | many (texts : List String)
  deriving DecidableEq, Repr

namespace Input

/-- How many texts there are, and so how many embeddings are expected. -/
def size : Input → Nat
  | one _ => 1
  | many texts => texts.length

def toJson : Input → Json
  | one text => .string text
  | many texts => .array (texts.map .string)

def ofSource? (s : Json.Source) : Option Input :=
  match s with
  | .string _ => s.text?.map one
  | .array _ => (s.items? Json.Source.text?).map many
  | _ => none

def read? (text : List Char) : Option Input := (Json.Source.read text).bind ofSource?

end Input

structure EmbedRequest where
  model : String
  input : Input
  deriving DecidableEq, Repr

namespace EmbedRequest

/-- The text of a request: the model comes first. -/
def text (r : EmbedRequest) : List Char :=
  '{' :: Json.quoted "model" ++ ':' :: Json.quoted r.model ++
    ',' :: Json.quoted "input" ++ ':' :: r.input.toJson.text ++ ['}']

/-- The request of a JSON text; both fields are required. -/
def read? (text : List Char) : Option EmbedRequest := do
  let source ← Json.Source.read text
  match ← source.columns ["model", "input"] with
  | [some model, some input] =>
      return { model := ← model.text?, input := ← Input.ofSource? input }
  | _ => none

end EmbedRequest

/-! ## Responses -/

/-- A response; a field that is missing is empty. -/
structure EmbedResponse where
  model : String := ""
  embeddings : List Embedding := []
  deriving DecidableEq

namespace EmbedResponse

def read? (text : List Char) : Option EmbedResponse := do
  let source ← Json.Source.read text
  match ← source.columns ["model", "embeddings"] with
  | [model, embeddings] =>
      return {
        model := ← (model.map Json.Source.text?).getD (some "")
        embeddings :=
          ← (embeddings.map (Json.Source.items? (Json.Source.items? Json.Source.single?))).getD
            (some []) }
  | _ => none

end EmbedResponse

end Ollama

end Retrieval
