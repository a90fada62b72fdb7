/-
# Retrieval.Yaml.Scalar.Flow -- scalars that are written in the flow of the text

A plain scalar has no marks around it, a quoted one has.  Both may run over
several lines, and then the gap between two lines is folded: one line end becomes
a blank, and of several the first one goes.  `Gap.join` is this rule, and the
three readers share it.

Each reader walks over the characters once.  A plain scalar ends before a mark
that cannot belong to it, a quoted one behind its closing quote; a quoted scalar
that is not closed, or that runs over the start of another document, cannot be
read.
-/
import Retrieval.Text.Number
import Retrieval.Yaml.Character

namespace Retrieval

set_option autoImplicit false

namespace Yaml

/-! ## Gaps -/

/-- What stands between two words of a scalar: blanks, or line ends with the
blanks around them dropped.  There is no first line end when it was escaped. -/
inductive Gap where
  | blanks (run : List Char)
  | breaks (first : Option Char) (more : List Char)
  deriving DecidableEq, Repr

namespace Gap

/-- No gap. -/
def closed : Gap := blanks []

/-- Whether there is a gap at all. -/
def isOpen : Gap → Bool
  | blanks run => !run.isEmpty
  | breaks .. => true

/-- Whether the gap runs over the end of a line. -/
def crossesLine : Gap → Bool
  | blanks _ => false
  | breaks .. => true

/-- The gap with one more blank or line end. -/
def feed (g : Gap) (c : Char) : Gap :=
  match g, isBreak c with
  | blanks run, false => blanks (run ++ [c])
  | blanks _, true => breaks (some c) []
  | breaks first more, false => breaks first more
  | breaks first more, true => breaks first (more ++ [c])

/-- What the gap is in the text of the scalar. -/
def join : Gap → List Char
  | blanks run => run
  | breaks (some '\n') [] => [' ']
  | breaks (some '\n') more => more
  | breaks (some c) more => c :: more
  | breaks none more => more

end Gap

/-! ## Plain scalars -/

/-- A plain scalar as read: its text, whether a line end comes after it, and what
is left. -/
structure Plain where
  text : List Char
  endsLine : Bool
  cursor : Cursor

/-- The plain scalar that ends here.  The text read so far comes last character
first. -/
def Plain.ending (text : List Char) (gap : Gap) (m : Mark) (rest : List Char) : Plain :=
  ⟨text.reverse, gap.crossesLine, ⟨m, rest⟩⟩

/-- Read on in a plain scalar.  Outside of brackets its further lines have to be
indented to `indent` at least; inside of brackets the marks of a collection end
it. -/
def plainFrom (flow : Bool) (indent : Nat) (text : List Char) (gap : Gap) (m : Mark) :
    List Char → Option Plain
  | [] => some (.ending text gap m [])
  | c :: rest =>
      if isGap c then
        if c = '\t' && gap.crossesLine && m.column < indent then none
        else plainFrom flow indent text (gap.feed c) (m.past c) rest
      else if gap.isOpen && ((!flow && m.column < indent) || c = '#' ||
          (m.column = 0 && isDocumentMark (c :: rest))) then
        some (.ending text gap m (c :: rest))
      else if flow && c = ':' && (rest.head?.any fun d => d = ',' || d = '?' || isBracket d) then
        none
      else if (c = ':' && atGap rest) || (flow && (c = ',' || isBracket c)) then
        some (.ending text gap m (c :: rest))
      else plainFrom flow indent (c :: (gap.join.reverse ++ text)) .closed (m.past c) rest

def plain (flow : Bool) (indent : Nat) (c : Cursor) : Option Plain :=
  plainFrom flow indent [] .closed c.mark c.rest

/-! ## Single quotes -/

/-- Read on behind a single quote.  Two quotes in a row are one. -/
def singleQuotedFrom (text : List Char) (gap : Gap) (m : Mark) :
    List Char → Option (List Char × Cursor)
  | [] => none
  | c :: rest =>
      if isGap c then singleQuotedFrom text (gap.feed c) (m.past c) rest
      else if m.column = 0 && isDocumentMark (c :: rest) then none
      else
        let text := gap.join.reverse ++ text
        if c = '\'' then
          match rest with
          | '\'' :: rest => singleQuotedFrom ('\'' :: text) .closed (m.right 2) rest
          | _ => some (text.reverse, ⟨m.past c, rest⟩)
        else singleQuotedFrom (c :: text) .closed (m.past c) rest

/-- Read a scalar in single quotes, from the quote on. -/
def singleQuoted (c : Cursor) : Option (List Char × Cursor) :=
  let c := c.next
  singleQuotedFrom [] .closed c.mark c.rest

/-! ## Double quotes -/

/-- How far an escape sequence has been read. -/
inductive Escaping where
  | no
  | backslash
  | digits (value owed : Nat)

/-- The character that an escape letter stands for. -/
def escapeLetter? (c : Char) : Option Char :=
  match c with
  | '0' => some '\x00'
  | 'a' => some '\x07'
  | 'b' => some '\x08'
  | 't' | '\t' => some '\t'
  | 'n' => some '\n'
  | 'v' => some '\x0b'
  | 'f' => some '\x0c'
  | 'r' => some '\r'
  | 'e' => some '\x1b'
  | ' ' | '"' | '/' | '\\' => some c
  | 'N' => some '\u0085'
  | '_' => some '\u00a0'
  | 'L' => some '\u2028'
  | 'P' => some '\u2029'
  | _ => none

/-- How many hexadecimal digits follow an escape letter. -/
def escapeDigits? (c : Char) : Option Nat :=
  match c with
  | 'x' => some 2
  | 'u' => some 4
  | 'U' => some 8
  | _ => none

/-- The character of a code point, if it is one. -/
def character? (n : Nat) : Option Char :=
  if n.isValidChar then some (Char.ofNat n) else none

/-- Read on behind a double quote.  A backslash at the end of a line takes the
line end out of the gap. -/
def doubleQuotedFrom (escaping : Escaping) (text : List Char) (gap : Gap) (m : Mark) :
    List Char → Option (List Char × Cursor)
  | [] => none
  | c :: rest =>
      match escaping with
      | .no =>
          if isGap c then doubleQuotedFrom .no text (gap.feed c) (m.past c) rest
          else if m.column = 0 && isDocumentMark (c :: rest) then none
          else
            let text := gap.join.reverse ++ text
            if c = '"' then some (text.reverse, ⟨m.past c, rest⟩)
            else if c = '\\' then doubleQuotedFrom .backslash text .closed (m.past c) rest
            else doubleQuotedFrom .no (c :: text) .closed (m.past c) rest
      | .backslash =>
          if isBreak c then doubleQuotedFrom .no text (.breaks none []) (m.past c) rest
          else
            match escapeLetter? c, escapeDigits? c with
            | some d, _ => doubleQuotedFrom .no (d :: text) .closed (m.past c) rest
            | none, some n => doubleQuotedFrom (.digits 0 n) text .closed (m.past c) rest
            | none, none => none
      | .digits value owed =>
          match Text.digit? c with
          | none => none
          | some d =>
              let value := value * 16 + d
              if 1 < owed then
                doubleQuotedFrom (.digits value (owed - 1)) text .closed (m.past c) rest
              else
                match character? value with
                | none => none
                | some a => doubleQuotedFrom .no (a :: text) .closed (m.past c) rest

/-- Read a scalar in double quotes, from the quote on. -/
def doubleQuoted (c : Cursor) : Option (List Char × Cursor) :=
  let c := c.next
  doubleQuotedFrom .no [] .closed c.mark c.rest

end Yaml

end Retrieval
