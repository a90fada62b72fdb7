/-
# Retrieval.Filter.Codec -- filters as JSON values

A filter is an object with one field: its name is the kind of condition and its
value the argument.  Conditions on a field take the array of the field's name
and the operand, the two connectives take the array of their parts, `exists`
takes the field's name and `not` the inner filter.  Nothing else is a filter.

`Filter.read?` reads a filter from a text.  There an object that repeats a
name is not yet reduced to the last of its fields, so a filter written with two
fields of one kind is refused; inside an operand the last one counts as always.
-/
import Retrieval.Filter.Basic
import Retrieval.Json.Reading

namespace Retrieval

set_option autoImplicit false

namespace Filter

/-! ## Writing -/

/-- An object with one field. -/
def tagged (kind : String) (argument : Json) : Json := .object [(kind, argument)]

def toJson : Filter → Json
  | eq field value => tagged "eq" (.array [.string field, value])
  | ne field value => tagged "ne" (.array [.string field, value])
  | gt field value => tagged "gt" (.array [.string field, value])
  | gte field value => tagged "gte" (.array [.string field, value])
  | lt field value => tagged "lt" (.array [.string field, value])
  | lte field value => tagged "lte" (.array [.string field, value])
  | oneOf field values => tagged "in" (.array [.string field, .array values])
  | contains field needle => tagged "contains" (.array [.string field, .string needle])
  | present field => tagged "exists" (.string field)
  | and left right => tagged "and" (.array [toJson left, toJson right])
  | or left right => tagged "or" (.array [toJson left, toJson right])
  | not inner => tagged "not" (toJson inner)

/-! ## Reading -/

/-- The condition on one field of this kind. -/
def condition? (kind field : String) (operand : Json) : Option Filter :=
  match kind with
  | "eq" => some (eq field operand)
  | "ne" => some (ne field operand)
  | "gt" => some (gt field operand)
  | "gte" => some (gte field operand)
  | "lt" => some (lt field operand)
  | "lte" => some (lte field operand)
  | "in" => operand.items?.map (oneOf field)
  | "contains" => operand.text?.map (contains field)
  | _ => none

def ofJson? : Json → Option Filter
  | .object [("exists", .string field)] => some (present field)
  | .object [("not", inner)] => (ofJson? inner).map not
  | .object [("and", .array [left, right])] => do
      return and (← ofJson? left) (← ofJson? right)
  | .object [("or", .array [left, right])] => do
      return or (← ofJson? left) (← ofJson? right)
  | .object [(kind, .array [.string field, operand])] => condition? kind field operand
  | _ => none

def settled : Filter → Filter
  | eq field value => eq field value.settled
  | ne field value => ne field value.settled
  | gt field value => gt field value.settled
  | gte field value => gte field value.settled
  | lt field value => lt field value.settled
  | lte field value => lte field value.settled
  | oneOf field values => oneOf field (values.map Json.settled)
  | and left right => and (settled left) (settled right)
  | or left right => or (settled left) (settled right)
  | not inner => not (settled inner)
  | filter => filter

def read? (text : List Char) : Option Filter := do
  let source ← Json.Source.read text
  let value ← source.written? Json.Source.depthLimit
  (ofJson? value).map settled

end Filter

end Retrieval
