/-
# Retrieval.Yaml.Token.Reading -- from a text to its tokens

The reader keeps three things besides its place.  The *indents* are the columns
of the block collections that are open; a token further left closes them.  The
*key candidate* of each level is a place where a key may have started: whether
it has is only known at the colon behind it, and then the tokens for the key are
put in at that place.  And there is a flag that says whether a key may start
right here.

A candidate has to be followed by its colon in the same line and within 1024
characters, else it is none.  In block context it may be *required*, when its
column is that of the open collection, and then that is a fault.
-/
import Retrieval.Yaml.Scalar.Block
import Retrieval.Yaml.Scalar.Flow
import Retrieval.Yaml.Tag
import Retrieval.Yaml.Token

namespace Retrieval

set_option autoImplicit false

namespace Yaml

/-! ## The state of reading -/

/-- A place where a key may have started: how many tokens are before it. -/
structure KeyCandidate where
  required : Bool
  tokens : Nat
  mark : Mark
  deriving DecidableEq, Repr

/-- The state of reading.  The tokens come last first, and so do the indents.
Each pair of brackets that is open adds a level, with a candidate of its own. -/
structure Reader where
  cursor : Cursor
  tokens : List Token := []
  indents : List Nat := []
  candidate : Option KeyCandidate := none
  outer : List (Option KeyCandidate) := []
  keyAllowed : Bool := true

namespace Reader

/-- The longest distance between a key candidate and its colon. -/
def keyReach : Nat := 1024

/-- Inside of brackets. -/
def inFlow (r : Reader) : Bool := !r.outer.isEmpty

/-- The column of the innermost block collection. -/
def indent? (r : Reader) : Option Nat := r.indents.head?

def emit (r : Reader) (t : Token) : Reader := { r with tokens := t :: r.tokens }

/-- Add a token and go on behind so many characters. -/
def emitOver (r : Reader) (n : Nat) (t : Token) : Reader :=
  { r.emit t with cursor := Nat.repeat Cursor.next n r.cursor }

/-- Put a token in where so many tokens are before it. -/
def emitAt (r : Reader) (position : Nat) (t : Token) : Reader :=
  let after := r.tokens.length - position
  { r with tokens := r.tokens.take after ++ t :: r.tokens.drop after }

/-! ## Key candidates -/

/-- Give up the candidate of this level; one that is required cannot be given up. -/
def dropCandidate (r : Reader) : Option Reader :=
  if r.candidate.any KeyCandidate.required then none else some { r with candidate := none }

/-- Make this place a candidate, if a key may start here. -/
def saveCandidate (r : Reader) : Option Reader :=
  if r.keyAllowed then do
    let r ← r.dropCandidate
    let required := !r.inFlow && r.indent? = some r.cursor.mark.column
    return { r with candidate := some ⟨required, r.tokens.length, r.cursor.mark⟩ }
  else some r

/-- Whether a candidate is out of reach of a colon here. -/
def isStale (m : Mark) (k : KeyCandidate) : Bool :=
  k.mark.line < m.line || k.mark.column + keyReach < m.column

/-- A candidate as seen from here: none when it is out of reach. -/
def refresh (m : Mark) : Option KeyCandidate → Option (Option KeyCandidate)
  | none => some none
  | some k =>
      if isStale m k then if k.required then none else some none else some (some k)

/-- Give up the candidates that are out of reach. -/
def refreshAll (r : Reader) : Option Reader := do
  let candidate ← refresh r.cursor.mark r.candidate
  let outer ← r.outer.mapM (refresh r.cursor.mark)
  return { r with candidate, outer }

/-! ## Indents -/

/-- Open a block collection at a column, unless one is open there; its token goes
where so many tokens are before it. -/
def openBlock (r : Reader) (column position : Nat) (t : Token) : Reader :=
  if r.inFlow || r.indent?.any fun i => column ≤ i then r
  else { r.emitAt position t with indents := column :: r.indents }

/-- Close the block collections that are further right than a column; without a
column, all of them. -/
def closeBlocks (r : Reader) (column : Option Nat) : Reader :=
  if r.inFlow then r
  else
    let closed := r.indents.takeWhile fun i => column.all (· < i)
    { r with
      indents := r.indents.drop closed.length
      tokens := List.replicate closed.length Token.blockEnd ++ r.tokens }

/-! ## Single tokens -/

def bracket? (c : Char) : Option Token :=
  match c with
  | '[' => some .flowSequence
  | ']' => some .flowSequenceEnd
  | '{' => some .flowMapping
  | '}' => some .flowMappingEnd
  | _ => none

def readOpening (r : Reader) (t : Token) : Option Reader := do
  let r ← r.saveCandidate
  return { r.emitOver 1 t with
    candidate := none, outer := r.candidate :: r.outer, keyAllowed := true }

def readClosing (r : Reader) (t : Token) : Option Reader := do
  let r ← r.dropCandidate
  let (candidate, outer) :=
    match r.outer with
    | [] => (r.candidate, [])
    | candidate :: outer => (candidate, outer)
  return { r.emitOver 1 t with candidate, outer, keyAllowed := false }

/-- A comma between brackets. -/
def readSeparator (r : Reader) : Option Reader := do
  let r ← r.dropCandidate
  return { r.emitOver 1 .separator with keyAllowed := true }

/-- In block context an entry of a collection may only start where a key may. -/
def enterBlock (r : Reader) (t : Token) : Option Reader :=
  if r.inFlow then some r
  else if r.keyAllowed then some (r.openBlock r.cursor.mark.column r.tokens.length t)
  else none

/-- A dash. -/
def readEntry (r : Reader) : Option Reader := do
  let r ← r.enterBlock .blockSequence
  let r ← r.dropCandidate
  return { r.emitOver 1 .entry with keyAllowed := true }

/-- A question mark. -/
def readKey (r : Reader) : Option Reader := do
  let r ← r.enterBlock .blockMapping
  let r ← r.dropCandidate
  return { r.emitOver 1 .key with keyAllowed := !r.inFlow }

/-- A colon: with a candidate the key began there. -/
def readValue (r : Reader) : Option Reader :=
  match r.candidate with
  | some k =>
      let r := (r.emitAt k.tokens .key).openBlock k.mark.column k.tokens .blockMapping
      some { r.emitOver 1 .value with candidate := none, keyAllowed := false }
  | none => do
      let r ← r.enterBlock .blockMapping
      return { r.emitOver 1 .value with keyAllowed := !r.inFlow }

/-- The name behind the mark of an anchor or a reference. -/
def readName (r : Reader) (t : String → Token) : Option Reader := do
  let r ← r.saveCandidate
  let (name, cursor) := r.cursor.next.span isWord
  let ends := atGap cursor.rest || cursor.rest.head?.any fun c => "?:,]\x7d%@\x60".toList.contains c
  if name.isEmpty || !ends then none
  else return { r.emit (t (String.ofList name)) with cursor, keyAllowed := false }

def readTag (r : Reader) : Option Reader := do
  let r ← r.saveCandidate
  let (handle, suffix, cursor) ← Tag.read r.inFlow r.cursor
  return { r.emit (.tag handle suffix) with cursor, keyAllowed := false }

def readBlock (r : Reader) (folded : Bool) : Option Reader := do
  let r ← r.dropCandidate
  let (text, cursor) ← block folded r.indent? r.cursor
  let style : Style := if folded then .quoted else .literal
  return { r.emit (.scalar style (String.ofList text)) with cursor, keyAllowed := true }

def readQuoted (r : Reader) (read : Cursor → Option (List Char × Cursor)) : Option Reader := do
  let r ← r.saveCandidate
  let (text, cursor) ← read r.cursor
  return { r.emit (.scalar .quoted (String.ofList text)) with cursor, keyAllowed := false }

def readPlain (r : Reader) : Option Reader := do
  let r ← r.saveCandidate
  let p ← plain r.inFlow ((r.indent?.map (· + 1)).getD 0) r.cursor
  return { r.emit (.scalar .plain (String.ofList p.text)) with
    cursor := p.cursor, keyAllowed := p.endsLine }

/-! ## Directives and documents -/

/-- A number of a version; ten digits are too many. -/
def number? (digits : List Char) : Option Nat :=
  if digits.isEmpty || 9 < digits.length then none
  else some (digits.foldl (fun n c => 10 * n + (c.toNat - '0'.toNat)) 0)

/-- What a version directive says. -/
def readVersion (c : Cursor) : Option (Token × Cursor) := do
  let (major, c) := (c.skip isBlank).span Char.isDigit
  match c.rest with
  | '.' :: _ => do
      let (minor, c) := c.next.span Char.isDigit
      return (.version (← number? major) (← number? minor), c)
  | _ => none

/-- A directive fills a line. -/
def readDirective (r : Reader) : Option Reader := do
  let r ← (r.closeBlocks none).dropCandidate
  let (name, c) := r.cursor.next.span isWord
  if !atGap c.rest then none
  else
    let (t, c) ←
      match String.ofList name with
      | "YAML" => readVersion c
      | "TAG" => (Tag.readDirective c).map fun (handle, stem, c) => (.tagDirective handle stem, c)
      | _ => none
    return { r.emit t with cursor := ← c.endLine, keyAllowed := false }

/-- The mark between documents. -/
def readDocumentMark (r : Reader) (t : Token) : Option Reader := do
  let r ← (r.closeBlocks none).dropCandidate
  return { r.emitOver 3 t with keyAllowed := false }

/-! ## All tokens -/

/-- Go on to the next token: over blanks, comments and line ends.  At the start of
a line a byte order mark is passed over.  Where a key may start, a tab is no
blank. -/
def toToken : Nat → Reader → Reader
  | 0, r => r
  | n + 1, r =>
      let c := r.cursor
      let c :=
        match c.rest with
        | '\uFEFF' :: _ => if c.mark.column = 0 then c.next else c
        | _ => c
      let tabs := r.inFlow || !r.keyAllowed
      let c := (c.skip fun a => a = ' ' || (tabs && a = '\t')).skipComment
      match c.rest with
      | a :: _ =>
          if isBreak a then
            toToken n { r with cursor := c.next, keyAllowed := r.keyAllowed || !r.inFlow }
          else { r with cursor := c }
      | [] => { r with cursor := c }

/-- Whether a plain scalar may start with a character before this rest. -/
def startsPlain (flow : Bool) (c : Char) (rest : List Char) : Bool :=
  if c = '-' then !(rest.head?.any isBlank)
  else if c = '?' || c = ':' then !flow && !atGap rest
  else !isGap c && !("#,[]\x7b\x7d&*!|>'\"%@\x60".toList.contains c)

/-- Read one token, from its first character on. -/
def readToken (r : Reader) (c : Char) (rest : List Char) : Option Reader :=
  let mark := r.cursor.mark.column = 0 && isDocumentMark (c :: rest)
  if r.cursor.mark.column = 0 && c = '%' then r.readDirective
  else if mark && c = '-' then r.readDocumentMark .documentStart
  else if mark then r.readDocumentMark .documentEnd
  else
    match bracket? c with
    | some t => if c = '[' || c = '{' then r.readOpening t else r.readClosing t
    | none =>
        if c = ',' then r.readSeparator
        else if c = '-' && atGap rest then r.readEntry
        else if c = '?' && (r.inFlow || atGap rest) then r.readKey
        else if c = ':' && (r.inFlow || atGap rest) then r.readValue
        else if c = '*' then r.readName .reference
        else if c = '&' then r.readName .anchor
        else if c = '!' then r.readTag
        else if c = '|' && !r.inFlow then r.readBlock false
        else if c = '>' && !r.inFlow then r.readBlock true
        else if c = '\'' then r.readQuoted singleQuoted
        else if c = '"' then r.readQuoted doubleQuoted
        else if startsPlain r.inFlow c rest then r.readPlain
        else none

/-- Read all tokens.  Each one takes a character at least, and so does each line
end on the way to it. -/
def readAll : Nat → Reader → Option Reader
  | 0, _ => none
  | n + 1, r => do
      let r ← (toToken (n + 1) r).refreshAll
      match r.cursor.rest with
      | [] => (r.closeBlocks none).dropCandidate
      | c :: rest => readAll n (← (r.closeBlocks (some r.cursor.mark.column)).readToken c rest)

end Reader

def tokens? (text : List Char) : Option (List Token) :=
  if text.all isAccepted then
    (Reader.readAll (text.length + 1) { cursor := ⟨{}, unify text⟩ }).map fun r =>
      r.tokens.reverse
  else none

end Yaml

end Retrieval
