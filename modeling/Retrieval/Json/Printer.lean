/-
# Retrieval.Json.Printer -- the compact text of a JSON value

No blanks are written.  In a string only the quote, the backslash and the
control characters are escaped, the latter by a letter where JSON has one.  A
float shows a point or an exponent, so reading the text gives a float again.
-/
import Retrieval.Json.Basic
import Retrieval.Decimal.Layout

namespace Retrieval

set_option autoImplicit false

namespace Json

def hexDigit (n : Nat) : Char := Nat.digitChar (n % 16)

/-- A character inside a string. -/
def escape (c : Char) : List Char :=
  if c = '"' then ['\\', '"']
  else if c = '\\' then ['\\', '\\']
  else if c = '\x08' then ['\\', 'b']
  else if c = '\x0c' then ['\\', 'f']
  else if c = '\n' then ['\\', 'n']
  else if c = '\r' then ['\\', 'r']
  else if c = '\t' then ['\\', 't']
  else if c.toNat < 0x20 then
    ['\\', 'u', '0', '0', hexDigit (c.toNat / 16), hexDigit c.toNat]
  else [c]

def quoted (s : String) : List Char := '"' :: s.toList.flatMap escape ++ ['"']

def Number.text : Number → List Char
  | .integer n _ _ => integerText n
  | .float x => x.text .double

def commas : List (List Char) → List Char
  | [] => []
  | [item] => item
  | item :: rest => item ++ ',' :: commas rest

/-- The texts and the commas between them, one after the other. -/
@[simp] theorem flatten_intersperse_comma (items : List (List Char)) :
    (items.intersperse [',']).flatten = commas items := by
  induction items with
  | nil => rfl
  | cons item rest ih =>
      cases rest with
      | nil => simp [commas]
      | cons next rest => simp [commas, ih]

mutual

def text : Json → List Char
  | null => "null".toList
  | bool b => (if b then "true" else "false").toList
  | number n => n.text
  | string s => quoted s
  | array items => '[' :: commas (itemTexts items) ++ [']']
  | object fields => '{' :: commas (fieldTexts fields) ++ ['}']

def itemTexts : List Json → List (List Char)
  | [] => []
  | item :: rest => text item :: itemTexts rest

def fieldTexts : List (String × Json) → List (List Char)
  | [] => []
  | (name, item) :: rest => (quoted name ++ ':' :: text item) :: fieldTexts rest

end

def compact (v : Json) : String := String.ofList v.text

end Json

end Retrieval
