/-
# Retrieval.Proofs.Ollama.Message -- a request is decoded as itself

The text of a request is an object with the model and the input.  One text is read as one
text and a batch as a batch, also a batch of one, since strings and arrays are told apart by
their first character (`EmbedRequest.read?_text`).
-/
import Retrieval.Ollama.Message
import Retrieval.Proofs.Json.Quoted

namespace Retrieval

set_option autoImplicit false

namespace Ollama

open Json (Reader Reads Source unitsOf)

/-! ## Inputs -/

/-- The input as it is read. -/
def Input.source : Input → Source
  | one text => .string (unitsOf text)
  | many texts => .array (texts.map fun text => .string (unitsOf text))

theorem itemTexts_strings (texts : List String) :
    Json.itemTexts (texts.map .string) = texts.map Json.quoted := by
  induction texts with
  | nil => rfl
  | cons text texts ih => rw [List.map_cons, Json.itemTexts, ih, Json.text, List.map_cons]

theorem Input.reads (input : Input) : Reads input.toJson.text input.source := by
  cases input with
  | one text => exact Json.reads_quoted text
  | many texts =>
      rw [Input.toJson, Json.text, itemTexts_strings]
      refine Json.Reads.array ?_
      rw [List.forall₂_map_left_iff, List.forall₂_map_right_iff, List.forall₂_same]
      exact fun text _ => Json.reads_quoted text

/-- **An input is decoded as itself.** -/
theorem Input.ofSource?_source (input : Input) : Input.ofSource? input.source = some input := by
  cases input with
  | one text => simp [Input.source, Input.ofSource?]
  | many texts =>
      have all : (texts.map fun text => Source.string (unitsOf text)).mapM Source.text? =
          some texts := by
        induction texts with
        | nil => rfl
        | cons text texts ih => simp [ih]
      simp [Input.source, Input.ofSource?, Source.items?, all]

/-! ## Requests -/

/-- The text of a request is read as an object with two fields. -/
theorem EmbedRequest.read_text (r : EmbedRequest) :
    Source.read r.text = some (.object
      [(unitsOf "model", .string (unitsOf r.model)), (unitsOf "input", r.input.source)]) := by
  have fields : r.text = ('{' :: (Json.quoted "model" ++ ':' :: Json.quoted r.model)) ++
      ([','] ++ ((Json.quoted "input" ++ ':' :: r.input.toJson.text) ++ ['}'])) := by
    simp [EmbedRequest.text]
  have model : Reader.start.run ('{' :: (Json.quoted "model" ++ ':' :: Json.quoted r.model)) =
      some ⟨.between, [.fields [(unitsOf "model", .string (unitsOf r.model))]], .separator⟩ :=
    (Json.reads_quoted r.model).field "model" [] [] .nameOrClose rfl
  have input := r.input.reads.field "input"
    [(unitsOf "model", .string (unitsOf r.model))] [] .name rfl
  have comma : Reader.run
        ⟨.between, [.fields [(unitsOf "model", .string (unitsOf r.model))]], .separator⟩ [','] =
      some ⟨.between, [.fields [(unitsOf "model", .string (unitsOf r.model))]], .name⟩ := rfl
  have ran : Reader.start.run r.text = some ⟨.between, [], .nothing (.object
      [(unitsOf "model", .string (unitsOf r.model)), (unitsOf "input", r.input.source)])⟩ := by
    rw [fields, Reader.run_append_of_eq model,
      Reader.run_append_of_eq comma, Reader.run_append_of_eq input]
    rfl
  exact congrArg (Option.bind · Reader.finish) ran

/-- **A request is decoded as itself.** -/
theorem EmbedRequest.read?_text (r : EmbedRequest) : EmbedRequest.read? r.text = some r := by
  have model : ["model", "input"].idxOf? "model" = some 0 := by decide
  have input : ["model", "input"].idxOf? "input" = some 1 := by decide
  rw [EmbedRequest.read?, r.read_text]
  simp [Source.columns, Source.spread, model, input, Input.ofSource?_source]

end Ollama

end Retrieval
