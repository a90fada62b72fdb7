/-
# Retrieval.Yaml.Value.Printer -- values as YAML texts

Collections are written as blocks, a field or an item in each line, and an empty
collection as a pair of brackets.  A mapping inside a mapping is indented by two,
a sequence is not.  Behind the dash of an item, or the mark of a key that does
not fit in its line, a collection goes on in the same line.  Every part that is
written ends its last line.

There are values that cannot be written.  The start of a mapping with one field is
held back until its key is met, since a tag is first met as such a field.  A key that
starts by holding its own start back, or has a tag, takes the place of what is held
back, and the start of the mapping is lost.  Behind a tag nothing is held back.
-/
import Retrieval.Yaml.Scalar.Writing
import Retrieval.Yaml.Value

namespace Retrieval

set_option autoImplicit false

namespace Yaml

namespace Value

/-! ## Scalars -/

/-- Floats are written in full like in JSON, but an exponent shows no plus sign. -/
def layout : Layout := { Layout.double with signed := false }

def floatText (x : Binary64) : List Char :=
  match x with
  | .nan => ".nan".toList
  | .number s _ _ =>
      if x.isInfinite then Binary.signText s ++ ".inf".toList else x.text layout

/-- The text of a scalar; collections have none. -/
def scalarText? (indent : Nat) (inKey : Bool) : Value → Option (List Char)
  | null => some "null".toList
  | bool b => some (if b then "true" else "false").toList
  | integer n => some (integerText n)
  | float x => some (floatText x)
  | string text => some (Scalar.write indent inKey text)
  | _ => none

/-- A text that ends its last line. -/
def closed (text : List Char) : List Char :=
  if text.getLast?.any Scalar.endsLine then text else text ++ ['\n']

/-! ## Keys -/

/-- The longest key that is written in one line with its value, in bytes. -/
def keyLimit : Nat := 128

/-- A key that fits in a line: its length in bytes and its text. -/
def keyText? : Value → Option (Nat × List Char)
  | sequence [] => some (0, "[]".toList)
  | mapping [] => some (0, ['{', '}'])
  | sequence _ => none
  | mapping _ => none
  | string text =>
      if text.toList.any Scalar.endsLine then none
      else some (Scalar.byteCount text.toList, Scalar.write 0 true text)
  | tagged tag v => do
      let (n, text) ← keyText? v
      return (n + Scalar.byteCount (Scalar.tagOf tag), Scalar.tagText tag ++ ' ' :: text)
  | v => (scalarText? 0 true v).map fun text => (Scalar.byteCount text, text)

/-- The text of a key that is written in one line with its value. -/
def shortKey? (v : Value) : Option (List Char) :=
  (keyText? v).bind fun (n, text) => if n ≤ keyLimit then some text else none

/-! ## Values -/

/-- What comes before a value. -/
inductive Lead where
  | dash
  | colon
  | mark
  deriving DecidableEq

mutual

/-- A value behind what comes before it, in a collection at a column.  Where
`inline` is set a collection goes on in the same line. -/
def textAfter (lead : Lead) (inline : Bool) (column : Nat) : Value → List Char
  | sequence [] => " []\n".toList
  | mapping [] => [' ', '{', '}', '\n']
  | sequence items =>
      let inner := if lead = .dash || inline then column + 2 else column
      if inline then ' ' :: itemsText inner true items else '\n' :: itemsText inner false items
  | mapping fields =>
      let inner := column + 2
      if inline then ' ' :: fieldsText inner true fields else '\n' :: fieldsText inner false fields
  | tagged tag v => ' ' :: Scalar.tagText tag ++ textAfter lead false column v
  | v => ' ' :: closed ((scalarText? (column + 2) false v).getD [])

/-- Items at a column; the first one may already be there. -/
def itemsText (column : Nat) (there : Bool) : List Value → List Char
  | [] => []
  | item :: rest =>
      (if there then [] else Scalar.blanks column) ++
        '-' :: textAfter .dash true column item ++ itemsText column false rest

/-- Fields at a column; the first one may already be there. -/
def fieldsText (column : Nat) (there : Bool) : List (Value × Value) → List Char
  | [] => []
  | (key, value) :: rest =>
      (if there then [] else Scalar.blanks column) ++
        (match shortKey? key with
          | some text => text ++ ':' :: textAfter .colon false column value
          | none =>
              '?' :: textAfter .mark true column key ++
                Scalar.blanks column ++ ':' :: textAfter .mark true column value) ++
        fieldsText column false rest

end

/-- The text of a value that is a whole document. -/
def text : Value → List Char
  | sequence (item :: rest) => itemsText 0 true (item :: rest)
  | mapping (field :: rest) => fieldsText 0 true (field :: rest)
  | tagged tag (sequence (item :: rest)) =>
      Scalar.tagText tag ++ '\n' :: itemsText 0 false (item :: rest)
  | tagged tag (mapping (field :: rest)) =>
      Scalar.tagText tag ++ '\n' :: fieldsText 0 false (field :: rest)
  | v => (textAfter .colon false 0 v).tail

/-! ## What can be written -/

/-- A key before which the start of a mapping is lost: one with a tag, or a mapping
with one field. -/
def losesStart : Value → Bool
  | tagged .. => true
  | mapping [_] => true
  | _ => false

/-- Whether the start of a mapping with these fields is lost, unless it is behind a
tag. -/
def isLost : List (Value × Value) → Bool
  | [(key, _)] => losesStart key
  | _ => false

mutual

/-- Whether a value can be written, behind a tag or not. -/
def isWritable (behindTag : Bool) : Value → Bool
  | sequence items => areWritableItems items
  | mapping fields => (behindTag || !isLost fields) && areWritableFields fields
  | tagged _ v => isWritable true v
  | _ => true

def areWritableItems : List Value → Bool
  | [] => true
  | item :: rest => isWritable false item && areWritableItems rest

def areWritableFields : List (Value × Value) → Bool
  | [] => true
  | (key, value) :: rest =>
      isWritable false key && isWritable false value && areWritableFields rest

end

/-- The text of a whole document, if its value can be written. -/
def text? (v : Value) : Option (List Char) := if v.isWritable false then some v.text else none

end Value

end Yaml

end Retrieval
