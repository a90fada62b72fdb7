/-
# Retrieval.Yaml.Scalar.Meaning -- what a plain scalar stands for

A plain scalar can stand for nothing, a truth value, an integer or a float, and
where it stands for none of them it is its text.  Integers may be written in the
bases two, eight and sixteen too.  Digits behind a leading zero are no number.
An integer that needs more than 64 bits, but no more than 128, stands for
nothing that can be used.
-/
import Retrieval.Decimal.Reading
import Retrieval.Text.Number

namespace Retrieval

set_option autoImplicit false

namespace Yaml

namespace Scalar

/-! ## Digits -/

/-- The text behind a beginning that it has. -/
def after? (beginning : String) (text : List Char) : Option (List Char) :=
  if beginning.toList.isPrefixOf text then some (text.drop beginning.length) else none

/-- Whether a text starts with a sign. -/
def isSigned (text : List Char) : Bool := text.head?.any fun c => c = '+' || c = '-'

/-- A leading zero with more digits behind it, which is no number. -/
def isPadded (text : List Char) : Bool :=
  match if isSigned text then text.drop 1 else text with
  | '0' :: c :: rest => (c :: rest).all Char.isDigit
  | _ => false

/-- The number behind the mark of a base. -/
def based? (sign : String) (text : List Char) : Option Nat :=
  (after? (sign ++ "0x") text).bind (Text.number? 16) <|>
    (after? (sign ++ "0o") text).bind (Text.number? 8) <|>
    (after? (sign ++ "0b") text).bind (Text.number? 2)

/-- The text without a plus sign at its start. -/
def withoutPlus (text : List Char) : List Char := (after? "+" text).getD text

/-- The natural number of a text; it may have a plus sign. -/
def natural? (text : List Char) : Option Nat :=
  based? "" (withoutPlus text) <|>
    if isPadded text then none else Text.number? 10 (withoutPlus text)

/-- The number behind a minus sign. -/
def negative? (text : List Char) : Option Nat :=
  based? "-" text <|> if isPadded text then none else (after? "-" text).bind (Text.number? 10)

/-- The natural number of 64 bits of a text. -/
def word? (text : List Char) : Option UInt64 :=
  (natural? text).bind fun n => if n < UInt64.size then some (UInt64.ofNat n) else none

def integer? (text : List Char) : Option Int :=
  (natural? text).map Int.ofNat <|> (negative? text).map fun n => -(n : Int)

/-! ## Floats -/

/-- The exponent of a decimal: a letter, a sign or none, and digits. -/
def exponent? (text : List Char) : Option Int :=
  match text with
  | [] => some 0
  | c :: rest =>
      if c = 'e' || c = 'E' then
        match rest with
        | '-' :: rest => (Text.number? 10 rest).map fun n => -(n : Int)
        | _ => (Text.number? 10 (withoutPlus rest)).map Int.ofNat
      else none

/-- The decimal of a text without sign: digits with a point among them or none,
and an exponent or none. -/
def decimal? (text : List Char) : Option Decimal := do
  let whole := text.takeWhile Char.isDigit
  let rest := text.drop whole.length
  let (fraction, rest) :=
    match rest with
    | '.' :: rest => (rest.takeWhile Char.isDigit, rest.dropWhile Char.isDigit)
    | _ => ([], rest)
  let significand ← Text.number? 10 (whole ++ fraction)
  return ⟨significand, (← exponent? rest) - fraction.length⟩

/-- The float of a text, if it is one and not too large. -/
def finite? (text : List Char) : Option Binary64 := do
  let (negative, text) :=
    match text with
    | '-' :: rest => (true, rest)
    | _ => (false, text)
  let x := (← decimal? text).toBinary negative
  if x.isFinite then some x else none

/-- The float of a text, which may have a sign of either kind. -/
def float? (text : List Char) : Option Binary64 :=
  let unsigned := withoutPlus text
  let words (stem : String) : Bool :=
    [".inf", ".Inf", ".INF"].any fun w => text = (stem ++ w).toList
  if words "" || words "+" then some (.infinite false)
  else if words "-" then some (.infinite true)
  else if [".nan", ".NaN", ".NAN"].any fun w => text = w.toList then some .nan
  else if text.head? = some '+' && isSigned unsigned then none
  else finite? unsigned

/-! ## Words -/

def isNull (text : String) : Bool := ["null", "Null", "NULL", "~"].contains text

def bool? (text : String) : Option Bool :=
  if ["true", "True", "TRUE"].contains text then some true
  else if ["false", "False", "FALSE"].contains text then some false
  else none

/-! ## Meanings -/

/-- What a scalar stands for. -/
inductive Meaning where
  | null
  | bool (value : Bool)
  | integer (value : Int)
  | tooLong
  | float (value : Binary64)
  | text

/-- Whether an integer has at most so many bits, with a sign or without. -/
def fits (bits : Nat) (n : Int) : Bool :=
  (-n).toNat ≤ 1 <<< (bits - 1) && n.toNat < 1 <<< bits

/-- What an integer stands for; one that needs more than 128 bits is no integer. -/
def ofInteger? (n : Int) : Option Meaning :=
  if fits 64 n then some (.integer n)
  else if fits 128 n then some .tooLong
  else none

def meaning (text : String) : Meaning :=
  let cs := text.toList
  if text.isEmpty || isNull text then .null
  else
    match bool? text, (integer? cs).bind ofInteger? with
    | some b, _ => .bool b
    | none, some m => m
    | none, none =>
        match if isPadded cs then none else float? cs with
        | some x => .float x
        | none => .text

/-- Whether a text would stand for something else if it were written plain, or
would look like a number. -/
def isAmbiguous (text : String) : Bool :=
  match meaning text with
  | .text => isPadded text.toList
  | _ => true

end Scalar

end Yaml

end Retrieval
