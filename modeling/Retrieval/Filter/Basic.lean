/-
# Retrieval.Filter.Basic -- conditions on metadata

A filter is a condition on the metadata of one document.  `eq`, `ne` and `oneOf`
compare whole values and keep integers and floats apart; the four comparisons
are numeric, take both numbers as 64-bit floats, and never hold where either
side is no number.  A field that is missing satisfies `ne` and no other
condition of one field.
-/
import Retrieval.Json.Basic
import Retrieval.Text.Line

namespace Retrieval

set_option autoImplicit false

/-- What is known about a document, by name. -/
abbrev Metadata := Entries String Json

/-- A condition on metadata. -/
inductive Filter where
  | eq (field : String) (value : Json)
  | ne (field : String) (value : Json)
  | gt (field : String) (value : Json)
  | gte (field : String) (value : Json)
  | lt (field : String) (value : Json)
  | lte (field : String) (value : Json)
  | oneOf (field : String) (values : List Json)
  | contains (field : String) (needle : String)
  | present (field : String)
  | and (left right : Filter)
  | or (left right : Filter)
  | not (inner : Filter)

namespace Filter

instance : Inhabited Filter := ⟨present ""⟩

/-- Whether a field holds a value that agrees with the given one. -/
def holds (metadata : Metadata) (field : String) (value : Json) : Bool :=
  match Entries.get? field metadata with
  | some found => found.agrees value
  | none => false

/-- Whether a field holds a number that stands in a relation to the given one. -/
def compares (relation : Binary64 → Binary64 → Bool) (metadata : Metadata)
    (field : String) (target : Json) : Bool :=
  match (Entries.get? field metadata).bind Json.double?, target.double? with
  | some a, some b => relation a b
  | _, _ => false

/-- Whether a document with this metadata meets the condition. -/
def accepts (metadata : Metadata) : Filter → Bool
  | eq field value => holds metadata field value
  | ne field value => !holds metadata field value
  | gt field value => compares (fun a b => Binary.less b a) metadata field value
  | gte field value => compares (fun a b => Binary.lessOrEqual b a) metadata field value
  | lt field value => compares Binary.less metadata field value
  | lte field value => compares Binary.lessOrEqual metadata field value
  | oneOf field values => values.any (holds metadata field)
  | contains field needle =>
      match Entries.get? field metadata with
      | some (.string text) => Text.contains needle.toList text.toList
      | _ => false
  | present field =>
      match Entries.get? field metadata with
      | none | some .null => false
      | some _ => true
  | and left right => accepts metadata left && accepts metadata right
  | or left right => accepts metadata left || accepts metadata right
  | not inner => !accepts metadata inner

end Filter

end Retrieval
