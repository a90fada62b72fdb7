/-
# Retrieval.Yaml.Character -- characters and places of a YAML text

A YAML text is read line by line.  Four characters and one pair end a line; three
of them mean the same and are unified before anything else happens
(`Yaml.unify`), so that a line ends in a line feed or in one of the two Unicode
separators, which are kept as they are.  A character outside the accepted ranges
makes the whole text unreadable.
-/

namespace Retrieval

set_option autoImplicit false

namespace Yaml

/-! ## Classes of characters -/

/-- Whether a character may stand in a text: printable, or one of the blanks and
line ends. -/
def isAccepted (c : Char) : Bool :=
  let v := c.toNat
  v = 0x09 || v = 0x0A || v = 0x0D || (0x20 ≤ v && v ≤ 0x7E) || v = 0x85 ||
    (0xA0 ≤ v && v ≤ 0xFFFD) || 0x10000 ≤ v

/-- A line end, after unification. -/
def isBreak (c : Char) : Bool := c = '\n' || c = '\u2028' || c = '\u2029'

def isBlank (c : Char) : Bool := c = ' ' || c = '\t'

/-- A character that separates tokens. -/
def isGap (c : Char) : Bool := isBlank c || isBreak c

/-- A character of names: of anchors, tag handles and directives. -/
def isWord (c : Char) : Bool := c.isAlphanum || c = '_' || c = '-'

/-- One of the characters that structure collections in brackets. -/
def isBracket (c : Char) : Bool := c = '[' || c = ']' || c = '{' || c = '}'

/-- Whether the text ends here or goes on with a blank or a line end. -/
def atGap : List Char → Bool
  | [] => true
  | c :: _ => isGap c

/-- The text with one character for each of the line ends that mean the same. -/
def unify : List Char → List Char
  | '\r' :: '\n' :: rest => '\n' :: unify rest
  | c :: rest => (if c = '\r' ∨ c = '\x85' then '\n' else c) :: unify rest
  | [] => []

/-- A line with three equal marks at its start and nothing right behind them
separates documents. -/
def isDocumentMark : List Char → Bool
  | '-' :: '-' :: '-' :: rest => atGap rest
  | '.' :: '.' :: '.' :: rest => atGap rest
  | _ => false

/-! ## Places -/

/-- A place in a text: how many lines are above it, and how many characters are
left of it. -/
structure Mark where
  line : Nat := 0
  column : Nat := 0
  deriving DecidableEq, Repr

namespace Mark

/-- The place behind a character. -/
def past (m : Mark) (c : Char) : Mark :=
  if isBreak c then ⟨m.line + 1, 0⟩ else { m with column := m.column + 1 }

def right (m : Mark) (n : Nat) : Mark := { m with column := m.column + n }

end Mark

/-- What is left to read, and the place where it starts. -/
structure Cursor where
  mark : Mark := {}
  rest : List Char

namespace Cursor

def next (c : Cursor) : Cursor :=
  match c.rest with
  | [] => c
  | a :: rest => ⟨c.mark.past a, rest⟩

/-- The characters of a class up to the first that is not, and the cursor behind
them.  No line end is in the class. -/
def span (p : Char → Bool) (c : Cursor) : List Char × Cursor :=
  let taken := c.rest.takeWhile p
  (taken, ⟨c.mark.right taken.length, c.rest.drop taken.length⟩)

/-- The cursor behind the characters of a class. -/
def skip (p : Char → Bool) (c : Cursor) : Cursor := (c.span p).2

/-- The cursor behind a comment that starts here. -/
def skipComment (c : Cursor) : Cursor :=
  match c.rest with
  | '#' :: _ => c.skip fun a => !isBreak a
  | _ => c

/-- The cursor at the start of the next line, when nothing but blanks and a
comment is left of this one. -/
def endLine (c : Cursor) : Option Cursor :=
  let c := (c.skip isBlank).skipComment
  match c.rest with
  | [] => some c
  | a :: _ => if isBreak a then some c.next else none

end Cursor

end Yaml

end Retrieval
