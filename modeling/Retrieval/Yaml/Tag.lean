/-
# Retrieval.Yaml.Tag -- how tags are written and what they say

A tag starts with an exclamation mark.  It has a handle and a suffix, or is given
whole in angle brackets.  A handle stands for a stem, which a directive of the
document may set, and the tag is the stem with the suffix behind it.

A tag is made of octets, since a suffix may hold any octet in hexadecimal.  They
have to come in groups of the size that their first one announces, but need not be
text.  The octet zero ends a suffix, whatever is behind it.

A tag that starts with an exclamation mark is the document's own, and has a name
when it is text; any other tag belongs to a standard.
-/
import Retrieval.Text.Number
import Retrieval.Text.Utf8
import Retrieval.Yaml.Character

namespace Retrieval

set_option autoImplicit false

namespace Yaml

namespace Tag

/-! ## Reading -/

/-- A character of a suffix; in a whole tag and in a stem some more are allowed. -/
def isSuffix (whole : Bool) (c : Char) : Bool :=
  isWord c || ";/?:@&=+$.%!~*'()".toList.contains c || (whole && ",[]".toList.contains c)

/-- How many octets the character has that starts with a given one. -/
def width? (b : UInt8) : Option Nat :=
  if b < 0x80 then some 1
  else if b < 0xC0 then none
  else if b < 0xE0 then some 2
  else if b < 0xF0 then some 3
  else if b < 0xF8 then some 4
  else none

/-- The octets of a suffix, when a character still lacks so many of them. -/
def octetsFrom? : Nat → List Char → Option Bytes
  | owed, '%' :: high :: low :: rest => do
      let b := UInt8.ofNat ((← Text.digit? high) * 16 + (← Text.digit? low))
      let owed ← if owed = 0 then width? b else if 0x80 ≤ b ∧ b < 0xC0 then some owed else none
      return b :: (← octetsFrom? (owed - 1) rest)
  | 0, c :: rest =>
      if c = '%' then none else do return String.utf8EncodeChar c ++ (← octetsFrom? 0 rest)
  | 0, [] => some []
  | _, _ => none

/-- The octets of a suffix, up to the octet zero. -/
def octets? (cs : List Char) : Option Bytes := (octetsFrom? 0 cs).map fun bs => bs.takeWhile (· ≠ 0)

/-- Read a suffix; the flag says whether it may be empty. -/
def readSuffix (whole mayBeEmpty : Bool) (c : Cursor) : Option (Bytes × Cursor) := do
  let (cs, c) := c.span (isSuffix whole)
  if cs.isEmpty && !mayBeEmpty then none else return (← octets? cs, c)

/-- Read the exclamation mark, the word behind it, and the mark that makes the two
a handle; the flag says whether that was there. -/
def readHandle (c : Cursor) : Option (String × Bool × Cursor) :=
  match c.rest with
  | '!' :: _ =>
      let (word, c) := c.next.span isWord
      match c.rest with
      | '!' :: _ => some (String.ofList ('!' :: word ++ ['!']), true, c.next)
      | _ => some (String.ofList ('!' :: word), false, c)
  | _ => none

def bang : UInt8 := 0x21

/-- Read a tag as a handle and a suffix.  A whole tag has an empty handle, and so
has the exclamation mark that stands alone. -/
def read (flow : Bool) (c : Cursor) : Option (String × Bytes × Cursor) := do
  let (handle, suffix, c) ←
    match c.rest with
    | '!' :: '<' :: _ => do
        let (suffix, c) ← readSuffix true false c.next.next
        match c.rest with
        | '>' :: _ => some ("", suffix, c.next)
        | _ => none
    | _ => do
        let (handle, marked, c') ← readHandle c
        if marked then
          let (suffix, c) ← readSuffix false false c'
          some (handle, suffix, c)
        else
          let (suffix, c) ← readSuffix false true c.next
          some (if suffix.isEmpty then ("", [bang], c) else ("!", suffix, c))
  if atGap c.rest || (flow && c.rest.head? = some ',') then some (handle, suffix, c) else none

/-- Read what a tag directive says: a handle and the stem it stands for. -/
def readDirective (c : Cursor) : Option (String × Bytes × Cursor) := do
  let (handle, marked, c) ← readHandle (c.skip isBlank)
  if !marked && handle ≠ "!" then none
  else if !(c.rest.head?.any isBlank) then none
  else
    let (stem, c) ← readSuffix true false (c.skip isBlank)
    if atGap c.rest then some (handle, stem, c) else none

/-! ## Standard tags -/

/-- The stem of the tags that the standard defines. -/
def standard : Bytes := Bytes.ofText "tag:yaml.org,2002:".toList

/-- The standard tag of a kind. -/
def ofKind (kind : String) : Bytes := standard ++ Bytes.ofText kind.toList

/-! ## Handles -/

/-- What handles stand for in a document. -/
abbrev Handles := List (String × Bytes)

/-- The handles that every document has, unless it sets them. -/
def defaultHandles : Handles := [("!", [bang]), ("!!", standard)]

/-- The tag of a handle and a suffix.  Without a handle the suffix is the tag. -/
def resolve? (handles : Handles) (handle : String) (suffix : Bytes) : Option Bytes :=
  if handle.isEmpty then some suffix else (handles.lookup handle).map (· ++ suffix)

/-! ## Tags of the document's own -/

/-- Octets without the exclamation mark at their start, when something is behind it. -/
def withoutBang : Bytes → Bytes
  | b :: c :: rest => if b = bang then c :: rest else b :: c :: rest
  | bs => bs

/-- The name in a tag of the document's own: what is behind its exclamation mark, or
the mark itself when it stands alone.  The name has to be text. -/
def name? (tag : Bytes) : Option String :=
  if tag.head? = some bang then (withoutBang tag).text?.map String.ofList else none

/-- A name as it counts: without a further exclamation mark at its start. -/
def unbanged (name : String) : String :=
  match name.toList with
  | '!' :: c :: rest => String.ofList (c :: rest)
  | _ => name

end Tag

end Yaml

end Retrieval
