/-
# Retrieval.Collection.Record -- one line of the log

A record puts an embedding under a number.  Its line is a JSON object whose
floats are written with the fewest digits that read back as the same 32-bit
float.  Reading goes through the 64-bit float nearest by the JSON reader's rule,
and then to 32 bits.
-/
import Retrieval.Index.Basic
import Retrieval.Json.Printer
import Retrieval.Text.Utf8

namespace Retrieval

set_option autoImplicit false

/-- An embedding with its number. -/
structure Record where
  id : DocumentId
  vector : Embedding
  deriving DecidableEq

namespace Record

def text (r : Record) : List Char :=
  '{' :: Json.quoted "id" ++ ':' :: digitsOf r.id.toNat ++
    ',' :: Json.quoted "vector" ++ ':' :: '[' ::
      Json.commas (r.vector.map (Binary.text .single)) ++ [']', '}']

/-- The text of a record in the pieces in which it is written. -/
def pieces (r : Record) : List (List Char) :=
  [['{'], ['"'], ['i', 'd'], ['"'], [':'], digitsOf r.id.toNat,
    [','], ['"'], "vector".toList, ['"'], [':'], ['[']] ++
      (r.vector.map (Binary.text .single)).intersperse [','] ++ [[']'], ['}']]

/-- The pieces make up the text. -/
theorem pieces_flatten (r : Record) : r.pieces.flatten = r.text := by
  have hid : Json.quoted "id" = ['"', 'i', 'd', '"'] := by decide
  have hvector : Json.quoted "vector" = '"' :: "vector".toList ++ ['"'] := by decide
  simp [pieces, text, hid, hvector]

def line (r : Record) : List Char := r.text ++ ['\n']

def bytes (r : Record) : Bytes := Bytes.ofText r.line

/-- The record of a text, if it is one. -/
def read? (text : List Char) : Option Record := do
  let source ← Json.Source.read text
  match ← source.columns ["id", "vector"] with
  | [some id, some vector] =>
      return { id := ← id.word?, vector := ← vector.items? Json.Source.single? }
  | _ => none

end Record

end Retrieval
