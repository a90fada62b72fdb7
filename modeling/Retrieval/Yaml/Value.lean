/-
# Retrieval.Yaml.Value -- the values of YAML texts

A value is what a tree stands for, without regard to how it is written.  The name
in a tag of the document's own is kept with its value; a standard tag says what
kind of scalar it has to be.  No key of a mapping occurs twice, where keys are
compared as values: floats as numbers, and mappings without regard to order.
-/
import Retrieval.Binary.Order
import Retrieval.Yaml.Source
import Retrieval.Yaml.Scalar.Meaning

namespace Retrieval

set_option autoImplicit false

namespace Yaml

inductive Value where
  | null
  | bool (value : Bool)
  | integer (value : Int)
  | float (value : Binary64)
  | string (text : String)
  | sequence (items : List Value)
  | mapping (fields : List (Value × Value))
  | tagged (tag : String) (value : Value)

namespace Value

instance : Inhabited Value := ⟨null⟩

/-! ## Comparing values -/

/-- Floats as keys: equal as numbers, and there is one that is no number. -/
def agreeFloat : Binary64 → Binary64 → Bool
  | .nan, .nan => true
  | x, y => Binary.equal x y

mutual

/-- Equality of values as keys. -/
def agree : Value → Value → Bool
  | null, null => true
  | bool a, bool b => a = b
  | integer a, integer b => a = b
  | float x, float y => agreeFloat x y
  | string a, string b => a = b
  | sequence a, sequence b => agreeItems a b
  | mapping a, mapping b => a.length = b.length && agreeFields a b
  | tagged s a, tagged t b => s = t && agree a b
  | _, _ => false

def agreeItems : List Value → List Value → Bool
  | [], [] => true
  | a :: as, b :: bs => agree a b && agreeItems as bs
  | _, _ => false

/-- Whether each field is among others. -/
def agreeFields : List (Value × Value) → List (Value × Value) → Bool
  | [], _ => true
  | (k, a) :: rest, others =>
      (others.any fun field => agree k field.1 && agree a field.2) && agreeFields rest others

end

def hasKey (k : Value) (fields : List (Value × Value)) : Bool :=
  fields.any fun field => agree k field.1

/-- Whether no key of fields occurs twice. -/
def areDistinct : List (Value × Value) → Bool
  | [] => true
  | (k, _) :: rest => !hasKey k rest && areDistinct rest

mutual

/-- Whether no mapping inside a value has a key twice. -/
def isProper : Value → Bool
  | sequence items => areProperItems items
  | mapping fields => areDistinct fields && areProperFields fields
  | tagged _ value => isProper value
  | _ => true

def areProperItems : List Value → Bool
  | [] => true
  | item :: rest => isProper item && areProperItems rest

def areProperFields : List (Value × Value) → Bool
  | [] => true
  | (key, value) :: rest => isProper key && isProper value && areProperFields rest

end

mutual

/-- Whether there is no tag inside a value. -/
def isUntagged : Value → Bool
  | sequence items => areUntaggedItems items
  | mapping fields => areUntaggedFields fields
  | tagged .. => false
  | _ => true

def areUntaggedItems : List Value → Bool
  | [] => true
  | item :: rest => isUntagged item && areUntaggedItems rest

def areUntaggedFields : List (Value × Value) → Bool
  | [] => true
  | (key, value) :: rest => isUntagged key && isUntagged value && areUntaggedFields rest

end

/-! ## From trees to values -/

/-- The name in the document's own tag, if there is one. -/
def ownName? (tag : Option Bytes) : Option String := tag.bind Tag.name?

/-- The value of what a plain scalar stands for. -/
def ofMeaning? (text : String) : Scalar.Meaning → Option Value
  | .null => some null
  | .bool b => some (bool b)
  | .integer n => some (integer n)
  | .tooLong => none
  | .float x => some (float x)
  | .text => some (string text)

/-- The value of an integer, which has to be written as one. -/
def ofIntegerText? (text : String) : Option Value :=
  ((Scalar.integer? text.toList).bind Scalar.ofInteger?).bind (ofMeaning? text)

/-- The value of a scalar without regard to a tag of the document's own.  A standard
tag for a kind of scalar holds also when the scalar is quoted, and any other tag of
a standard makes it a text. -/
def ofScalar? (tag : Option Bytes) (style : Style) (text : String) : Option Value :=
  if tag = some (Tag.ofKind "bool") then (Scalar.bool? text).map bool
  else if tag = some (Tag.ofKind "int") then ofIntegerText? text
  else if tag = some (Tag.ofKind "float") then (Scalar.float? text.toList).map float
  else if tag = some (Tag.ofKind "null") then
    if Scalar.isNull text then some null else none
  else if style = .plain && tag.all fun t => t.head? = some Tag.bang then
    ofMeaning? text (Scalar.meaning text)
  else some (string text)

/-- A value with the document's own tag, if there is one. -/
def withTag (tag : Option Bytes) (v : Value) : Value :=
  match ownName? tag with
  | none => v
  | some name => tagged (Tag.unbanged name) v

mutual

def ofTree? : Tree → Option Value
  | .reference name => nomatch name
  | .scalar p style text => (ofScalar? p.tag style text).map (withTag p.tag)
  | .sequence p items => (ofItems? items).map fun items => withTag p.tag (sequence items)
  | .mapping p fields => (ofFields? fields).map fun fields => withTag p.tag (mapping fields)

def ofItems? : List Tree → Option (List Value)
  | [] => some []
  | item :: rest => do return (← ofTree? item) :: (← ofItems? rest)

def ofFields? : List (Tree × Tree) → Option (List (Value × Value))
  | [] => some []
  | (key, value) :: rest => do
      return (← ofTree? key, ← ofTree? value) :: (← ofFields? rest)

end

def read? (text : List Char) : Option Value := do
  let s ← Source.read? text
  let v ← ofTree? (← s.run (s.tree 0 s.root))
  if v.isProper then some v else none

/-! ## Fields of mappings -/

/-- The value under a key that is a string. -/
def field? (name : String) (fields : List (Value × Value)) : Option Value :=
  (fields.find? fun field => agree (string name) field.1).map Prod.snd

/-- Put a value under a key: in its place when the key is there, else at the end. -/
def setField (name : String) (v : Value) : List (Value × Value) → List (Value × Value)
  | [] => [(string name, v)]
  | (k, old) :: rest =>
      if agree (string name) k then (k, v) :: rest else (k, old) :: setField name v rest

end Value

end Yaml

end Retrieval
