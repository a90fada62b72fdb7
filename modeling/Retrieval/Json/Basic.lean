/-
# Retrieval.Json.Basic -- JSON values

A number is an integer of 64 bits, with or without sign, or a finite float; the
two kinds are kept apart, so `1` and `1.0` are different values.  An object is a
finite map from names to values, so the order in which its fields were written
is not part of it and no name occurs twice.

Values are compared with `Json.agrees`: structurally, except that floats are
compared as numbers, so `0.0` and `-0.0` agree.
-/
import Retrieval.Binary.Arithmetic
import Retrieval.Binary.Order
import Retrieval.Entries

namespace Retrieval

set_option autoImplicit false

namespace Json

/-- The least integer, which is that of 64 bits with a sign. -/
abbrev Number.least : Int := -9223372036854775808

/-- The integers end before this one, which needs more than 64 bits without a sign. -/
abbrev Number.limit : Int := 18446744073709551616

inductive Number where
  | integer (value : Int) (lower : Number.least ≤ value) (upper : value < Number.limit)
  | float (value : Binary64)
  deriving DecidableEq

namespace Number

/-- The number as a float, an integer rounded to the nearest. -/
def toDouble : Number → Binary64
  | integer n _ _ => Binary.ofInt n
  | float x => x

/-- The number as a 32-bit float: an integer is rounded once, a float once more. -/
def toSingle : Number → Binary32
  | integer n _ _ => Binary.ofInt n
  | float x => x.convert .single

/-- The number as a natural number of 64 bits, if it is written as one. -/
def toWord? : Number → Option UInt64
  | integer n _ _ => if 0 ≤ n then some (UInt64.ofNat n.toNat) else none
  | float _ => none

/-- Numbers agree when they are of one kind and equal. -/
def agrees : Number → Number → Bool
  | integer a _ _, integer b _ _ => a = b
  | float x, float y => Binary.equal x y
  | _, _ => false

def ofWord (n : UInt64) : Number :=
  integer n.toNat
    (by have : (0 : Int) ≤ n.toNat := Int.natCast_nonneg _; simp only [least]; omega)
    (by have := n.toNat_lt; simp only [limit]; omega)

end Number

end Json

inductive Json where
  | null
  | bool (value : Bool)
  | number (value : Json.Number)
  | string (value : String)
  | array (items : List Json)
  | object (fields : List (String × Json))

namespace Json

instance : Inhabited Json := ⟨null⟩

def ofWord (n : UInt64) : Json := number (.ofWord n)

mutual

/-- Equality of values, floats compared as numbers. -/
def agrees : Json → Json → Bool
  | null, null => true
  | bool a, bool b => a = b
  | number a, number b => a.agrees b
  | string a, string b => a = b
  | array a, array b => agreesItems a b
  | object a, object b => agreesFields a b
  | _, _ => false

def agreesItems : List Json → List Json → Bool
  | [], [] => true
  | a :: as, b :: bs => agrees a b && agreesItems as bs
  | _, _ => false

/-- Equality of objects, whose fields are in order. -/
def agreesFields : List (String × Json) → List (String × Json) → Bool
  | [], [] => true
  | (k, a) :: as, (l, b) :: bs => k = l && agrees a b && agreesFields as bs
  | _, _ => false

end

/-! ## Settling the fields of objects -/

mutual

/-- The value with every object reduced to the last field of each name, in order
of the names. -/
def settled : Json → Json
  | array items => array (settledItems items)
  | object fields => object (settledFields fields)
  | v => v

def settledItems : List Json → List Json
  | [] => []
  | item :: rest => settled item :: settledItems rest

/-- The fields of an object, settled; those further right count. -/
def settledFields (fields : List (String × Json)) : List (String × Json) :=
  Entries.ofList (settledValues fields)

/-- The fields of an object as they stand, the values settled. -/
def settledValues : List (String × Json) → List (String × Json)
  | [] => []
  | (name, item) :: rest => (name, settled item) :: settledValues rest

end

/-! ## Parts of a value -/

def text? : Json → Option String
  | string s => some s
  | _ => none

def items? : Json → Option (List Json)
  | array items => some items
  | _ => none

def fields? : Json → Option (List (String × Json))
  | object fields => some fields
  | _ => none

def bool? : Json → Option Bool
  | bool b => some b
  | _ => none

def number? : Json → Option Number
  | number n => some n
  | _ => none

/-- The natural number of a value that is written as one of 64 bits. -/
def word? (v : Json) : Option UInt64 := v.number?.bind Number.toWord?

/-- The number of a numeric value as a float. -/
def double? (v : Json) : Option Binary64 := v.number?.map Number.toDouble

def field? (name : String) (v : Json) : Option Json := v.fields?.bind (Entries.get? name)

end Json

end Retrieval
