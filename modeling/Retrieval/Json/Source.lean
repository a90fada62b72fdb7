/-
# Retrieval.Json.Source -- JSON texts as they are written

A JSON text is read in two steps.  This module does the first: it recognises the
grammar and keeps what was written -- the digits of a number, the units of a
string, every field of an object in order, also when a name is repeated.  What a
number or a string then means, and whether it means anything, is decided in
`Retrieval.Json.Reading`, and only for the parts that someone asks for.  So a
field that nobody asks for may hold a number that is too large or half a
surrogate pair, and may be nested to any depth.

The reader is an automaton.  `Reader.step` takes one character, and the whole
state is the token begun and the stack of containers that are open.  Reading is
therefore a fold over the characters, and what follows is never looked at: a
number ends when a character comes that cannot continue it, and that character
is then taken as if nothing had been begun.
-/
import Retrieval.Text.Number

namespace Retrieval

set_option autoImplicit false

namespace Json

/-- A unit of a string: a character that stands for itself or was escaped by a
letter, or a unit of 16 bits written in hexadecimal. -/
inductive CodeUnit where
  | plain (c : Char)
  | escaped (unit : Nat)
  deriving DecidableEq, Repr

/-- The digits of a number as written.  An empty fraction means that there is no
point, and the sign of the exponent is true when it is negative. -/
structure Literal where
  negative : Bool
  integer : List Nat
  fraction : List Nat
  exponent : Option (Bool × List Nat)
  deriving DecidableEq, Repr

/-- A JSON text as written. -/
inductive Source where
  | null
  | bool (value : Bool)
  | number (literal : Literal)
  | string (units : List CodeUnit)
  | array (items : List Source)
  | object (fields : List (List CodeUnit × Source))

/-! ## Numbers -/

/-- How far a number has been read. -/
inductive Phase where
  | sign
  | zero
  | integer
  | point
  | fraction
  | exponentMark
  | exponentSign
  | exponent
  deriving DecidableEq, Repr

/-- A number begun.  The digits read last come first. -/
structure Numeral where
  phase : Phase
  negative : Bool := false
  integer : List Nat := []
  fraction : List Nat := []
  exponentNegative : Bool := false
  exponent : List Nat := []

def digit? (c : Char) : Option Nat :=
  if '0' ≤ c ∧ c ≤ '9' then some (c.toNat - '0'.toNat) else none

namespace Numeral

/-- The number that a character begins. -/
def start? (c : Char) : Option Numeral :=
  if c = '-' then some { phase := .sign, negative := true }
  else
    match digit? c with
    | some 0 => some { phase := .zero, integer := [0] }
    | some d => some { phase := .integer, integer := [d] }
    | none => none

/-- The number continued by a character, if it can be. -/
def step (n : Numeral) (c : Char) : Option Numeral :=
  let mark := c = 'e' ∨ c = 'E'
  match n.phase, digit? c with
  | .sign, some 0 => some { n with phase := .zero, integer := [0] }
  | .sign, some d => some { n with phase := .integer, integer := [d] }
  | .integer, some d => some { n with integer := d :: n.integer }
  | .point, some d | .fraction, some d =>
      some { n with phase := .fraction, fraction := d :: n.fraction }
  | .exponentMark, some d | .exponentSign, some d | .exponent, some d =>
      some { n with phase := .exponent, exponent := d :: n.exponent }
  | .zero, none | .integer, none =>
      if c = '.' then some { n with phase := .point }
      else if mark then some { n with phase := .exponentMark } else none
  | .fraction, none => if mark then some { n with phase := .exponentMark } else none
  | .exponentMark, none =>
      if c = '+' then some { n with phase := .exponentSign }
      else if c = '-' then some { n with phase := .exponentSign, exponentNegative := true }
      else none
  | _, _ => none

/-- The literal, if the number may end here. -/
def literal? (n : Numeral) : Option Literal :=
  match n.phase with
  | .zero | .integer | .fraction =>
      some ⟨n.negative, n.integer.reverse, n.fraction.reverse, none⟩
  | .exponent =>
      some ⟨n.negative, n.integer.reverse, n.fraction.reverse,
        some (n.exponentNegative, n.exponent.reverse)⟩
  | _ => none

end Numeral

/-! ## The reader -/

/-- The token begun. -/
inductive Lexeme where
  | between
  | text (units : List CodeUnit)
  | escape (units : List CodeUnit)
  | hex (units : List CodeUnit) (value owed : Nat)
  | numeral (n : Numeral)
  | word (rest : List Char) (value : Source)

/-- An open container.  What was read last comes first. -/
inductive Frame where
  | items (done : List Source)
  | fields (done : List (List CodeUnit × Source))
  | field (done : List (List CodeUnit × Source)) (name : List CodeUnit)

/-- What may come next between tokens. -/
inductive Expect where
  | value
  | valueOrClose
  | name
  | nameOrClose
  | colon
  | separator
  | nothing (read : Source)

/-- The state of the reader. -/
structure Reader where
  lexeme : Lexeme
  stack : List Frame
  expect : Expect

namespace Reader

def start : Reader := ⟨.between, [], .value⟩

/-- A value may begin here. -/
def wantsValue (r : Reader) : Bool :=
  match r.expect with
  | .value | .valueOrClose => true
  | _ => false

/-- A name may begin here. -/
def wantsName (r : Reader) : Bool :=
  match r.expect with
  | .name | .nameOrClose => true
  | _ => false

/-- A container may be closed here. -/
def mayClose (r : Reader) : Bool :=
  match r.expect with
  | .valueOrClose | .nameOrClose | .separator => true
  | _ => false

/-- The state after a value has been read. -/
def complete (stack : List Frame) (value : Source) : Option Reader :=
  match stack with
  | [] => some ⟨.between, [], .nothing value⟩
  | .items done :: rest => some ⟨.between, .items (value :: done) :: rest, .separator⟩
  | .field done name :: rest =>
      some ⟨.between, .fields ((name, value) :: done) :: rest, .separator⟩
  | .fields _ :: _ => none

/-- The state after the units of a string have been read. -/
def completeText (r : Reader) (units : List CodeUnit) : Option Reader :=
  if r.wantsValue then complete r.stack (.string units)
  else
    match r.stack with
    | .fields done :: rest => some ⟨.between, .field done units :: rest, .colon⟩
    | _ => none

/-- White space between tokens. -/
def isSpace (c : Char) : Bool := c = ' ' || c = '\t' || c = '\n' || c = '\r'

/-- A character outside of tokens. -/
def stepBetween (r : Reader) (c : Char) : Option Reader :=
  if isSpace c then some { r with lexeme := .between }
  else if c = '"' then
    if r.wantsValue || r.wantsName then some { r with lexeme := .text [] } else none
  else if c = ',' then
    match r.expect, r.stack with
    | .separator, .items _ :: _ => some { r with lexeme := .between, expect := .value }
    | .separator, .fields _ :: _ => some { r with lexeme := .between, expect := .name }
    | _, _ => none
  else if c = ':' then
    match r.expect with
    | .colon => some { r with lexeme := .between, expect := .value }
    | _ => none
  else if c = ']' then
    match r.mayClose, r.stack with
    | true, .items done :: rest => complete rest (.array done.reverse)
    | _, _ => none
  else if c = '}' then
    match r.mayClose, r.stack with
    | true, .fields done :: rest => complete rest (.object done.reverse)
    | _, _ => none
  else if !r.wantsValue then none
  else if c = '[' then some ⟨.between, .items [] :: r.stack, .valueOrClose⟩
  else if c = '{' then some ⟨.between, .fields [] :: r.stack, .nameOrClose⟩
  else if c = 't' then some { r with lexeme := .word "rue".toList (.bool true) }
  else if c = 'f' then some { r with lexeme := .word "alse".toList (.bool false) }
  else if c = 'n' then some { r with lexeme := .word "ull".toList .null }
  else (Numeral.start? c).map fun n => { r with lexeme := .numeral n }

/-- The character that an escape letter stands for. -/
def escapeLetter? (c : Char) : Option Char :=
  if c = '"' ∨ c = '\\' ∨ c = '/' then some c
  else if c = 'b' then some '\x08'
  else if c = 'f' then some '\x0c'
  else if c = 'n' then some '\n'
  else if c = 'r' then some '\r'
  else if c = 't' then some '\t'
  else none

def step (r : Reader) (c : Char) : Option Reader :=
  match r.lexeme with
  | .between => stepBetween r c
  | .text units =>
      if c = '"' then completeText r units.reverse
      else if c = '\\' then some { r with lexeme := .escape units }
      else if c.toNat < 0x20 then none
      else some { r with lexeme := .text (.plain c :: units) }
  | .escape units =>
      if c = 'u' then some { r with lexeme := .hex units 0 4 }
      else (escapeLetter? c).map fun d => { r with lexeme := .text (.plain d :: units) }
  | .hex units value owed =>
      (Text.digit? c).map fun d =>
        let value := value * 16 + d
        if owed ≤ 1 then { r with lexeme := .text (.escaped value :: units) }
        else { r with lexeme := .hex units value (owed - 1) }
  | .numeral n =>
      match n.step c with
      | some n' => some { r with lexeme := .numeral n' }
      | none => do stepBetween (← complete r.stack (.number (← n.literal?))) c
  | .word rest value =>
      match rest with
      | [] => none
      | d :: rest =>
          if c ≠ d then none
          else if rest.isEmpty then complete r.stack value
          else some { r with lexeme := .word rest value }

/-- The text read, if it is complete. -/
def finish (r : Reader) : Option Source :=
  match r.lexeme, r.expect with
  | .between, .nothing value => some value
  | .numeral n, _ => if r.stack.isEmpty then n.literal?.map .number else none
  | _, _ => none

end Reader

namespace Source

def read (text : List Char) : Option Source :=
  (text.foldlM Reader.step Reader.start).bind Reader.finish

end Source

end Json

end Retrieval
