/-
# Retrieval.Ollama.Host -- the names of hosts

A host is named by words between points, without regard to case, or by a number.
The number of a host has four bytes.  It is written as one to four numbers in the
bases eight, ten or sixteen: all but the last stand for a byte each, and the last one
for all that are left.  A name whose last word is a number has to be such a number.

Characters may be written as octets in hexadecimal; that is undone first.
-/
import Retrieval.Text.Number
import Retrieval.Text.Utf8

namespace Retrieval

set_option autoImplicit false

namespace Ollama

namespace Host

/-! ## Names -/

/-- The octets of a text in which some are written in hexadecimal. -/
def octets : List Char → Bytes
  | '%' :: high :: low :: rest =>
      match Text.digit? high, Text.digit? low with
      | some h, some l => UInt8.ofNat (h * 16 + l) :: octets rest
      | _, _ => Bytes.ofText ['%', high, low] ++ octets rest
  | c :: rest => Bytes.ofText [c] ++ octets rest
  | [] => []

/-- A character that cannot be in a name. -/
def isForbidden (c : Char) : Bool :=
  c ≤ ' ' || c = '\x7f' || "#/:<>?@[\\]^|%".toList.contains c

/-- The words of a name. -/
def words : List Char → List (List Char)
  | [] => [[]]
  | c :: rest =>
      if c = '.' then [] :: words rest
      else
        match words rest with
        | [] => [[c]]
        | word :: more => (c :: word) :: more

/-- The words without an empty one at the end. -/
def labels (name : List Char) : List (List Char) :=
  let all := words name
  if all.getLast? = some [] then all.dropLast else all

/-! ## Numbers -/

def number? : List Char → Option Nat
  | '0' :: x :: rest =>
      if x = 'x' then if rest.isEmpty then some 0 else Text.number? 16 rest
      else Text.number? 8 (x :: rest)
  | word => Text.number? 10 word

/-- Whether a word is a number as far as names go. -/
def looksNumeric (word : List Char) : Bool :=
  match word with
  | '0' :: 'x' :: rest => rest.all fun c => (Text.digit? c).isSome
  | _ => !word.isEmpty && word.all Char.isDigit

/-- The bytes of a host: those that stand for one each, and the last number. -/
def join? (count : Nat) : List Nat → Option (List Nat)
  | [] => none
  | [last] =>
      if last < 1 <<< (8 * count) then
        some ((List.range count).map fun i => last >>> (8 * (count - 1 - i)) % 256)
      else none
  | n :: rest => if n < 256 then (join? (count - 1) rest).map (n :: ·) else none

/-- The usual text of a host that is given by numbers. -/
def ofNumbers? (labels : List (List Char)) : Option String := do
  if 4 < labels.length then none
  else
    let bytes ← join? 4 (← labels.mapM number?)
    return ".".intercalate (bytes.map toString)

/-! ## Hosts -/

/-- The usual text of a host, if it is one.  In square brackets there is a number of
another kind, which is kept as it is. -/
def read? (text : List Char) : Option String :=
  match text with
  | '[' :: rest =>
      let number := rest.dropLast
      if rest.getLast? = some ']' && number.contains ':' &&
          number.all fun c => (Text.digit? c).isSome || c = ':' || c = '.' then
        some (String.ofList (number.map Char.toLower))
      else none
  | _ => do
      let name := (← (octets text).text?).map Char.toLower
      let labels := labels name
      if name.isEmpty || name.any isForbidden then none
      else if labels.getLast?.any looksNumeric then ofNumbers? labels
      else some (String.ofList name)

/-- Whether a host is this computer itself. -/
def isLocal (host : String) : Bool :=
  host = "localhost" || host = "::1" || (labels host.toList).head? = some "127".toList

end Host

end Ollama

end Retrieval
