/-
# Retrieval.Yaml.Scalar.Writing -- how a text is written as a scalar

A text is written plain if it can be, else in single quotes, else in double
quotes with escapes.  A text that would stand for something else when plain is
quoted, and a text with a line feed in it is written as a literal block.  What
can be is decided by the `Traits` of the text: the places of blanks and line ends
in it, its marks, and whether each character can be shown as it is.
-/
import Retrieval.Json.Printer
import Retrieval.Text.Utf8
import Retrieval.Yaml.Character
import Retrieval.Yaml.Scalar.Meaning

namespace Retrieval

set_option autoImplicit false

namespace Yaml

namespace Scalar

/-! ## Characters -/

/-- A character that ends a line when it is read. -/
def endsLine (c : Char) : Bool := isBreak c || c = '\r' || c = '\u0085'

/-- A character that separates tokens when it is read. -/
def isSeparator (c : Char) : Bool := isBlank c || endsLine c

/-- A character that is shown as it is, outside of double quotes. -/
def isShown (c : Char) : Bool :=
  let v := c.toNat
  v = 0x0A || (0x20 ≤ v && v ≤ 0x7E) || (0xA0 ≤ v && v ≤ 0xFFFD && v ≠ 0xFEFF) || 0x10000 ≤ v

/-! ## Traits -/

/-- What decides how a text can be written. -/
structure Traits where
  startsBlank : Bool
  startsBroken : Bool
  endsBlank : Bool
  endsBroken : Bool
  blankBeforeBreak : Bool
  blankAfterBreak : Bool
  broken : Bool
  hidden : Bool
  marked : Bool

/-- Whether some two neighbours are related. -/
def anyNeighbours (p : Char → Char → Bool) : List Char → Bool
  | a :: b :: rest => p a b || anyNeighbours p (b :: rest)
  | _ => false

/-- Whether a text starts with the mark of a document. -/
def startsLikeDocument (text : List Char) : Bool :=
  "---".toList.isPrefixOf text || "...".toList.isPrefixOf text

/-- Whether a text starts like something else than a plain scalar. -/
def startsMarked : List Char → Bool
  | [] => false
  | c :: rest =>
      "#,[]\x7b\x7d&*!|>'\"%@\x60".toList.contains c ||
        ((c = '?' || c = ':' || c = '-') && rest.head?.all isSeparator)

/-- Whether a plain scalar would end inside a text: a colon before a separator or
at the end, or a comment after a separator. -/
def isCutShort : List Char → Bool
  | [] => false
  | [_] => false
  | a :: b :: rest =>
      (b = ':' && rest.head?.all isSeparator) || (b = '#' && isSeparator a) ||
        isCutShort (b :: rest)

def traits (text : List Char) : Traits where
  startsBlank := text.head? = some ' '
  startsBroken := text.head?.any endsLine
  endsBlank := text.getLast? = some ' '
  endsBroken := text.getLast?.any endsLine
  blankBeforeBreak := anyNeighbours (fun a b => a = ' ' && endsLine b) text
  blankAfterBreak := anyNeighbours (fun a b => endsLine a && b = ' ') text
  broken := text.any endsLine
  hidden := text.any fun c => !isShown c
  marked := startsLikeDocument text || startsMarked text || isCutShort text

namespace Traits

/-- Only double quotes are left. -/
def needsEscapes (t : Traits) : Bool := t.blankBeforeBreak || t.hidden

def allowsPlain (t : Traits) : Bool :=
  !(t.startsBlank || t.startsBroken || t.endsBlank || t.endsBroken || t.broken || t.marked ||
    t.needsEscapes)

def allowsSingle (t : Traits) : Bool := !(t.blankAfterBreak || t.needsEscapes)

def allowsBlock (t : Traits) : Bool := !(t.endsBlank || t.needsEscapes)

end Traits

/-! ## Ways of writing -/

def blanks (n : Nat) : List Char := List.replicate n ' '

/-- A text inside single quotes; what comes behind line ends is indented. -/
def singleQuotedFrom (indent : Nat) (afterBreak : Bool) : List Char → List Char
  | [] => if afterBreak then blanks indent else []
  | c :: rest =>
      if endsLine c then c :: singleQuotedFrom indent true rest
      else
        let shown : List Char := if c = '\'' then ['\'', '\''] else [c]
        (if afterBreak then blanks indent else []) ++ shown ++ singleQuotedFrom indent false rest

def singleQuoted (indent : Nat) (text : List Char) : List Char :=
  '\'' :: singleQuotedFrom indent false text ++ ['\'']

/-- The digits of a number in base sixteen, in upper case, padded with zeros. -/
def hexDigits (width n : Nat) : List Char :=
  let digits := (Nat.toDigits 16 n).map Char.toUpper
  List.replicate (width - digits.length) '0' ++ digits

def escaped (c : Char) : List Char :=
  let v := c.toNat
  if c = '"' || c = '\\' then ['\\', c]
  else if isShown c && !endsLine c then [c]
  else
    '\\' ::
      match v with
      | 0x00 => ['0']
      | 0x07 => ['a']
      | 0x08 => ['b']
      | 0x09 => ['t']
      | 0x0A => ['n']
      | 0x0B => ['v']
      | 0x0C => ['f']
      | 0x0D => ['r']
      | 0x1B => ['e']
      | 0x85 => ['N']
      | 0x2028 => ['L']
      | 0x2029 => ['P']
      | _ =>
          if v ≤ 0xFF then 'x' :: hexDigits 2 v
          else if v ≤ 0xFFFF then 'u' :: hexDigits 4 v
          else 'U' :: hexDigits 8 v

def doubleQuoted (text : List Char) : List Char := '"' :: text.flatMap escaped ++ ['"']

/-- The lines of a literal block, each indented. -/
def blockLines (indent : Nat) (atStart : Bool) : List Char → List Char
  | [] => []
  | c :: rest =>
      if endsLine c then c :: blockLines indent true rest
      else if atStart then blanks indent ++ c :: blockLines indent false rest
      else c :: blockLines indent false rest

/-- The mark that says what happens to the line ends at the end of a block: none is
there, there is one, or there are more or nothing else. -/
def chompingMark (text : List Char) : List Char :=
  match text.reverse with
  | [] => ['-']
  | c :: rest =>
      if !endsLine c then ['-'] else if rest.head?.all endsLine then ['+'] else []

/-- A text as a literal block.  Its indentation is said when the first line does
not show it. -/
def literal (indent : Nat) (text : List Char) : List Char :=
  let hint : List Char :=
    if text.head?.any fun c => c = ' ' || endsLine c then ['2'] else []
  '|' :: hint ++ chompingMark text ++ '\n' :: blockLines indent true text

/-- A text as a scalar; `quote` is set when it has to be quoted, `inKey` when it is
a key and has to stay in its line. -/
def flowing (indent : Nat) (quote inKey : Bool) (text : List Char) : List Char :=
  let t := traits text
  if inKey && t.broken then doubleQuoted text
  else if !quote && t.allowsPlain && !(inKey && text.isEmpty) then text
  else if t.allowsSingle then singleQuoted indent text
  else doubleQuoted text

def write (indent : Nat) (inKey : Bool) (text : String) : List Char :=
  let cs := text.toList
  if cs.contains '\n' then
    if (traits cs).allowsBlock && !inKey then literal indent cs else doubleQuoted cs
  else flowing indent (isAmbiguous text) inKey cs

def byteCount (text : List Char) : Nat := (Bytes.ofText text).length

/-! ## Tags -/

/-- A character in the suffix of a tag; one that cannot stand there is written as
its octets. -/
def tagCharacter (c : Char) : List Char :=
  if isWord c || ";/?:@&=+$,.~*'()[]".toList.contains c then [c]
  else (Bytes.ofText [c]).flatMap fun b => '%' :: hexDigits 2 b.toNat

/-- The tag of a name: an exclamation mark and the name, which may bring its own. -/
def tagOf (name : String) : List Char :=
  if name.toList.head? = some '!' then name.toList else '!' :: name.toList

/-- The text of the tag of a name.  The exclamation mark alone is written whole. -/
def tagText (name : String) : List Char :=
  match (tagOf name).tail with
  | [] => "!<%21>".toList
  | suffix => '!' :: suffix.flatMap tagCharacter

end Scalar

end Yaml

end Retrieval
