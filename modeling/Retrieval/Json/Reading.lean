/-
# Retrieval.Json.Reading -- what a JSON text means

The second step of reading.  A string means its characters, where two escaped
surrogates in a row are one character and any other surrogate is refused.  A
number without point and exponent that fits 64 bits is an integer, except `-0`;
every other number is a float, read from the digits that fit 64 bits and the
power of ten that is left (`Literal.number?`).  A container is refused when it
is nested too deeply.

Structured values are asked for by the names of their fields (`Source.columns`):
an unknown field is passed over without being read any further, a repeated known
field is refused, and an array of the fields in order is as good as an object.
-/
import Retrieval.Json.Basic
import Retrieval.Json.Source
import Retrieval.Decimal.Reading

namespace Retrieval

set_option autoImplicit false

namespace Json

/-! ## Strings -/

def isHighSurrogate (u : Nat) : Bool := 0xD800 ≤ u && u < 0xDC00

def isLowSurrogate (u : Nat) : Bool := 0xDC00 ≤ u && u < 0xE000

/-- The characters of the units of a string. -/
def charsOf? : List CodeUnit → Option (List Char)
  | [] => some []
  | .plain c :: rest => (charsOf? rest).map (c :: ·)
  | .escaped u :: .escaped v :: rest =>
      if isHighSurrogate u then
        if isLowSurrogate v then
          (charsOf? rest).map
            (Char.ofNat (0x10000 + (u - 0xD800) * 0x400 + (v - 0xDC00)) :: ·)
        else none
      else if isLowSurrogate u then none
      else (charsOf? (.escaped v :: rest)).map (Char.ofNat u :: ·)
  | .escaped u :: rest =>
      if isHighSurrogate u || isLowSurrogate u then none
      else (charsOf? rest).map (Char.ofNat u :: ·)

def stringOf? (units : List CodeUnit) : Option String :=
  (charsOf? units).map String.ofList

/-! ## Numbers -/

namespace Literal

def value (digits : List Nat) : Nat := digits.foldl (fun n d => 10 * n + d) 0

/-- Take digits into a significand for as long as it has 64 bits; the
rest of the digits is left. -/
def absorb (significand : Nat) : List Nat → Nat × List Nat
  | [] => (significand, [])
  | d :: rest =>
      if 10 * significand + d < UInt64.size then absorb (10 * significand + d) rest
      else (significand, d :: rest)

/-- The decimal that a literal is read as.  Digits of the whole part that do not
fit count for the power of ten; those of the fraction are dropped. -/
def decimal (l : Literal) : Decimal :=
  let (whole, unread) := absorb 0 l.integer
  let (significand, dropped) := absorb whole l.fraction
  let point : Int := unread.length - (l.fraction.length - dropped.length : Nat)
  let exponent : Int :=
    match l.exponent with
    | none => 0
    | some (true, digits) => -(value digits : Int)
    | some (false, digits) => value digits
  ⟨significand, point + exponent⟩

/-- The number that a literal means; none when it is past the finite floats. -/
def number? (l : Literal) : Option Number :=
  let n : Int := if l.negative then -(value l.integer : Int) else value l.integer
  if h : l.fraction = [] ∧ l.exponent = none ∧ Number.least ≤ n ∧ n < Number.limit ∧
      ¬(l.negative ∧ n = 0) then
    some (.integer n h.2.2.1 h.2.2.2.1)
  else (l.decimal.scaled l.negative).map .float

end Literal

/-! ## Values -/

namespace Source

/-- How deeply containers may be nested. -/
def depthLimit : Nat := 127

mutual

/-- The value of a source whose containers are nested at most `depth` deep, with
the fields of objects as they are written. -/
def written? (depth : Nat) : Source → Option Json
  | null => some .null
  | bool b => some (.bool b)
  | number l => l.number?.map .number
  | string units => (stringOf? units).map .string
  | array items =>
      if depth = 0 then none else (writtenItems? (depth - 1) items).map .array
  | object fields =>
      if depth = 0 then none else (writtenFields? (depth - 1) fields).map .object

def writtenItems? (depth : Nat) : List Source → Option (List Json)
  | [] => some []
  | item :: rest => do return (← written? depth item) :: (← writtenItems? depth rest)

/-- The names and values of fields, in order. -/
def writtenFields? (depth : Nat) : List (List CodeUnit × Source) → Option (List (String × Json))
  | [] => some []
  | (name, item) :: rest => do
      return (← stringOf? name, ← written? depth item) :: (← writtenFields? depth rest)

end

/-- The value of a source whose containers are nested at most `depth` deep. -/
def value? (depth : Nat) (s : Source) : Option Json := (s.written? depth).map Json.settled

/-- The fields of a source that is an object, settled. -/
def values? (depth : Nat) : Source → Option (List (String × Json))
  | object fields => (writtenFields? depth fields).map Json.settledFields
  | _ => none

def text? : Source → Option String
  | string units => stringOf? units
  | _ => none

def number? : Source → Option Number
  | number l => l.number?
  | _ => none

def word? (s : Source) : Option UInt64 := s.number?.bind Number.toWord?

/-- The number of a source as a 32-bit float. -/
def single? (s : Source) : Option Binary32 := s.number?.map Number.toSingle

/-- What is read from each item of an array. -/
def items? {α : Type} (read : Source → Option α) : Source → Option (List α)
  | array items => items.mapM read
  | _ => none

/-! ## Structured values -/

/-- Spread fields over the columns of a record: an unknown name is passed over,
a column that is already filled is an error. -/
def spread (names : List String) :
    List (List CodeUnit × Source) → List (Option Source) → Option (List (Option Source))
  | [], columns => some columns
  | (units, item) :: rest, columns => do
      let name ← stringOf? units
      match names.idxOf? name with
      | none => spread names rest columns
      | some i =>
          match columns[i]? with
          | some none => spread names rest (columns.set i (some item))
          | _ => none

/-- The columns of a structured value with the given names, written as an object
or as an array of its fields in order. -/
def columns (names : List String) : Source → Option (List (Option Source))
  | object fields => spread names fields (List.replicate names.length none)
  | array items =>
      if names.length < items.length then none
      else some (items.map some ++ List.replicate (names.length - items.length) none)
  | _ => none

end Source

def read? (text : List Char) : Option Json :=
  (Source.read text).bind (Source.value? Source.depthLimit)

end Json

end Retrieval
