/-
# Retrieval.Yaml.Scalar.Block -- scalars that are written as a block of lines

A block scalar has a header, which may fix the indentation and what happens to
the line ends at its end, and then its lines.  Without an indentation in the
header the first line that is not empty decides.  A line with less indentation
ends the scalar.

In a literal scalar every line end counts.  In a folded one the end of a line
becomes a blank, unless one of the two lines around it starts with a blank; of
several line ends in a row the first one goes.
-/
import Retrieval.Yaml.Character

namespace Retrieval

set_option autoImplicit false

namespace Yaml

/-! ## The header -/

/-- What happens to the line ends at the end of a block scalar: all of them go,
all but one go, or none. -/
inductive Chomping where
  | strip
  | clip
  | keep
  deriving DecidableEq, Repr

/-- The header of a block scalar.  Without an increment the lines decide. -/
structure BlockHeader where
  chomping : Chomping := .clip
  increment : Option Nat := none
  deriving DecidableEq, Repr

namespace BlockHeader

/-- The chomping that a character stands for. -/
def chomping? (c : Char) : Option Chomping :=
  if c = '+' then some .keep else if c = '-' then some .strip else none

/-- The indentation that a character stands for; there is none of nothing. -/
def increment? (c : Char) : Option Nat :=
  if '1' ≤ c ∧ c ≤ '9' then some (c.toNat - '0'.toNat) else none

/-- Add what one character says, where it does not say it again. -/
def add (h : BlockHeader) (c : Char) : Option BlockHeader :=
  match chomping? c, increment? c, h with
  | some chomping, _, ⟨.clip, n⟩ => some ⟨chomping, n⟩
  | none, some n, ⟨chomping, none⟩ => some ⟨chomping, some n⟩
  | _, _, _ => none

/-- The header that characters make. -/
def ofChars? (cs : List Char) : Option BlockHeader := cs.foldlM add {}

/-- Read the header behind the mark, up to the start of the next line. -/
def read (c : Cursor) : Option (BlockHeader × Cursor) := do
  let (cs, c) := c.span fun a => a = '+' || a = '-' || a.isDigit
  return (← ofChars? cs, ← c.endLine)

end BlockHeader

/-! ## The lines -/

/-- A block scalar begun.  The text comes last character first, without the line
ends read last: `ended` is that of the last line, `empty` are those of the empty
lines behind it. -/
structure Block where
  text : List Char := []
  ended : Option Char := none
  empty : List Char := []
  blank : Bool := false

namespace Block

/-- What joins the last line to one that starts with this character. -/
def joint (folded : Bool) (b : Block) (c : Char) : List Char :=
  if folded && b.ended = some '\n' && !b.blank && !isBlank c then
    if b.empty.isEmpty then [' '] else b.empty
  else b.ended.toList ++ b.empty

/-- Start a line with a character. -/
def startLine (folded : Bool) (b : Block) (c : Char) : Block where
  text := c :: ((b.joint folded c).reverse ++ b.text)
  blank := isBlank c

def finish (chomping : Chomping) (b : Block) : List Char :=
  b.text.reverse ++
    match chomping with
    | .strip => []
    | .clip => b.ended.toList
    | .keep => b.ended.toList ++ b.empty

end Block

/-- Read on in a block scalar, inside a line or before its first character.  A tab
cannot stand where the indentation is not complete. -/
def blockFrom (folded : Bool) (indent : Nat) (inside : Bool) (b : Block) (m : Mark) :
    List Char → Option (Block × Cursor)
  | [] => some (b, ⟨m, []⟩)
  | c :: rest =>
      if inside then
        if isBreak c then
          blockFrom folded indent false { b with ended := some c } (m.past c) rest
        else blockFrom folded indent true { b with text := c :: b.text } (m.past c) rest
      else if isBreak c then
        blockFrom folded indent false { b with empty := b.empty ++ [c] } (m.past c) rest
      else if indent ≤ m.column then
        blockFrom folded indent true (b.startLine folded c) (m.past c) rest
      else if c = ' ' then blockFrom folded indent false b (m.past c) rest
      else if c = '\t' then none
      else some (b, ⟨m, c :: rest⟩)

/-- Skip empty lines and indentation: the line ends, the deepest column that was
reached, and the cursor before the first character that is neither. -/
def leadingLines (breaks : List Char) (deepest : Nat) (m : Mark) :
    List Char → Option (List Char × Nat × Cursor)
  | [] => some (breaks, max deepest m.column, ⟨m, []⟩)
  | c :: rest =>
      let deepest := max deepest m.column
      if c = ' ' then leadingLines breaks deepest (m.past c) rest
      else if c = '\t' then none
      else if isBreak c then leadingLines (breaks ++ [c]) deepest (m.past c) rest
      else some (breaks, deepest, ⟨m, c :: rest⟩)

/-- Read a block scalar, from its mark on.  Its lines are indented deeper than the
collection around it, which is at `parent`. -/
def block (folded : Bool) (parent : Option Nat) (c : Cursor) :
    Option (List Char × Cursor) := do
  let (header, c) ← BlockHeader.read c.next
  let (b, c) ←
    match header.increment with
    | some n => blockFrom folded (parent.getD 0 + n) false {} c.mark c.rest
    | none => do
        let (empty, deepest, c) ← leadingLines [] 0 c.mark c.rest
        let indent := max deepest (max 1 ((parent.map (· + 1)).getD 0))
        blockFrom folded indent false { empty } c.mark c.rest
  return (b.finish header.chomping, c)

end Yaml

end Retrieval
