/-
# Retrieval.Yaml.Node -- the tree of a YAML text

A node is a scalar, a sequence, a mapping, or a reference (`*name`), which stands
for the node that has its name as an anchor.  The names are a parameter: as
written they are texts, later they are numbers, and a tree without references has
none (`Yaml.Tree`).

`Node.ofTokens?` is the grammar.  Where the text leaves a node out there is the
empty plain scalar.  There is at most one document.
-/
import Retrieval.Yaml.Tag
import Retrieval.Yaml.Token

namespace Retrieval

set_option autoImplicit false

namespace Yaml

/-- What stands before a node: the name it can be referred to by, and its tag. -/
structure Properties (ν : Type) where
  anchor : Option ν := none
  tag : Option Bytes := none

/-- A node with names in `ν`. -/
inductive Node (ν : Type) where
  | reference (name : ν)
  | scalar (properties : Properties ν) (style : Style) (text : String)
  | sequence (properties : Properties ν) (items : List (Node ν))
  | mapping (properties : Properties ν) (fields : List (Node ν × Node ν))

/-- A tree without anchors and references. -/
abbrev Tree := Node Empty

namespace Node

variable {ν : Type}

instance : Inhabited (Node ν) := ⟨scalar {} .plain ""⟩

/-- The node that is not written. -/
def empty : Node ν := scalar {} .plain ""

/-! ## Properties -/

/-- A tag before the node or none, its handle resolved. -/
def takeTag (handles : Tag.Handles) : List Token → Option (Option Bytes × List Token)
  | .tag handle suffix :: rest => do return (some (← Tag.resolve? handles handle suffix), rest)
  | ts => some (none, ts)

def takeAnchor : List Token → Option String × List Token
  | .anchor name :: rest => (some name, rest)
  | ts => (none, ts)

/-- The properties before a node: an anchor and a tag in either order. -/
def takeProperties (handles : Tag.Handles) (ts : List Token) :
    Option (Properties String × List Token) :=
  match ts with
  | .tag .. :: _ => do
      let (tag, ts) ← takeTag handles ts
      let (anchor, ts) := takeAnchor ts
      return ({ anchor, tag }, ts)
  | _ => do
      let (anchor, ts) := takeAnchor ts
      let (tag, ts) ← takeTag handles ts
      return ({ anchor, tag }, ts)

/-! ## The grammar -/

/-- Nothing is written for the key or the value of a block mapping. -/
def endsField : List Token → Bool
  | .key :: _ | .value :: _ | .blockEnd :: _ => true
  | _ => false

/-- Nothing is written for an entry of a block sequence. -/
def endsEntry : List Token → Bool
  | .entry :: _ | .blockEnd :: _ => true
  | _ => false

/-- Nothing is written for the key or the value of a mapping in brackets. -/
def endsFlowValue : List Token → Bool
  | .separator :: _ | .flowMappingEnd :: _ => true
  | _ => false

/-- Nothing is written for the value of a single pair in brackets. -/
def endsFlowItem : List Token → Bool
  | .separator :: _ | .flowSequenceEnd :: _ => true
  | _ => false

/-- The tokens behind the separator that has to be between two items. -/
def afterSeparator (first : Bool) : List Token → Option (List Token)
  | .separator :: rest => if first then some (.separator :: rest) else some rest
  | ts => if first then some ts else none

mutual

/-- Read a node.  Where `bare` is set, a sequence may lack indentation of its own. -/
def read (handles : Tag.Handles) (fuel : Nat) (bare : Bool) (ts : List Token) :
    Option (Node String × List Token) :=
  match fuel with
  | 0 => none
  | fuel + 1 =>
      match ts with
      | .reference name :: rest => some (reference name, rest)
      | _ => do
          let (p, ts) ← takeProperties handles ts
          match ts with
          | .scalar style text :: rest => some (scalar p style text, rest)
          | .flowSequence :: rest => do
              let (items, rest) ← readFlowItems handles fuel true rest
              return (sequence p items, rest)
          | .flowMapping :: rest => do
              let (fields, rest) ← readFlowFields handles fuel true rest
              return (mapping p fields, rest)
          | .blockSequence :: rest => do
              let (items, rest) ← readEntries handles fuel rest
              return (sequence p items, rest)
          | .blockMapping :: rest => do
              let (fields, rest) ← readFields handles fuel rest
              return (mapping p fields, rest)
          | _ =>
              if bare && ts.head? = some .entry then do
                let (items, rest) ← readBareEntries handles fuel ts
                return (sequence p items, rest)
              else if p.anchor.isSome || p.tag.isSome then some (scalar p .plain "", ts)
              else none

def readEntries (handles : Tag.Handles) (fuel : Nat) (ts : List Token) :
    Option (List (Node String) × List Token) :=
  match fuel with
  | 0 => none
  | fuel + 1 =>
      match ts with
      | .blockEnd :: rest => some ([], rest)
      | .entry :: rest => do
          let (item, rest) ←
            if endsEntry rest then some (empty, rest) else read handles fuel false rest
          let (items, rest) ← readEntries handles fuel rest
          return (item :: items, rest)
      | _ => none

/-- Read the entries of a sequence without indentation of its own. -/
def readBareEntries (handles : Tag.Handles) (fuel : Nat) (ts : List Token) :
    Option (List (Node String) × List Token) :=
  match fuel with
  | 0 => none
  | fuel + 1 =>
      match ts with
      | .entry :: rest => do
          let (item, rest) ←
            if endsEntry rest || endsField rest then some (empty, rest)
            else read handles fuel false rest
          let (items, rest) ← readBareEntries handles fuel rest
          return (item :: items, rest)
      | _ => some ([], ts)

def readFields (handles : Tag.Handles) (fuel : Nat) (ts : List Token) :
    Option (List (Node String × Node String) × List Token) :=
  match fuel with
  | 0 => none
  | fuel + 1 =>
      match ts with
      | .blockEnd :: rest => some ([], rest)
      | .key :: rest => do
          let (key, rest) ←
            if endsField rest then some (empty, rest) else read handles fuel true rest
          let (value, rest) ←
            match rest with
            | .value :: rest =>
                if endsField rest then some (empty, rest) else read handles fuel true rest
            | _ => some (empty, rest)
          let (fields, rest) ← readFields handles fuel rest
          return ((key, value) :: fields, rest)
      | _ => none

/-- Read the items of a sequence in brackets.  An item with a key is a mapping of
one field; where that key is not written, the token there is passed over. -/
def readFlowItems (handles : Tag.Handles) (fuel : Nat) (first : Bool) (ts : List Token) :
    Option (List (Node String) × List Token) :=
  match fuel with
  | 0 => none
  | fuel + 1 =>
      match ts with
      | .flowSequenceEnd :: rest => some ([], rest)
      | _ => do
          match ← afterSeparator first ts with
          | .flowSequenceEnd :: rest => some ([], rest)
          | .key :: rest => do
              let (key, rest) ←
                if rest.head? = some .value || endsFlowItem rest then some (empty, rest.tail)
                else read handles fuel false rest
              let (value, rest) ←
                match rest with
                | .value :: rest =>
                    if endsFlowItem rest then some (empty, rest)
                    else read handles fuel false rest
                | _ => some (empty, rest)
              let (items, rest) ← readFlowItems handles fuel false rest
              return (mapping {} [(key, value)] :: items, rest)
          | rest => do
              let (item, rest) ← read handles fuel false rest
              let (items, rest) ← readFlowItems handles fuel false rest
              return (item :: items, rest)

/-- Read the fields of a mapping in brackets. -/
def readFlowFields (handles : Tag.Handles) (fuel : Nat) (first : Bool) (ts : List Token) :
    Option (List (Node String × Node String) × List Token) :=
  match fuel with
  | 0 => none
  | fuel + 1 =>
      match ts with
      | .flowMappingEnd :: rest => some ([], rest)
      | _ => do
          match ← afterSeparator first ts with
          | .flowMappingEnd :: rest => some ([], rest)
          | .key :: rest => do
              let (key, rest) ←
                if rest.head? = some .value || endsFlowValue rest then some (empty, rest)
                else read handles fuel false rest
              let (value, rest) ←
                match rest with
                | .value :: rest =>
                    if endsFlowValue rest then some (empty, rest)
                    else read handles fuel false rest
                | _ => some (empty, rest)
              let (fields, rest) ← readFlowFields handles fuel false rest
              return ((key, value) :: fields, rest)
          | rest => do
              let (key, rest) ← read handles fuel false rest
              let (fields, rest) ← readFlowFields handles fuel false rest
              return ((key, empty) :: fields, rest)

end

/-! ## Documents -/

/-- The directives of a document: at most one version, which has to be known, and
handles, none of them twice. -/
def takeDirectives (version : Bool) (handles : Tag.Handles) :
    List Token → Option (Tag.Handles × List Token)
  | .version major minor :: rest =>
      if version || major ≠ 1 || (minor ≠ 1 && minor ≠ 2) then none
      else takeDirectives true handles rest
  | .tagDirective handle stem :: rest =>
      if (handles.lookup handle).isSome then none
      else takeDirectives version (handles ++ [(handle, stem)]) rest
  | ts => some (handles ++ Tag.defaultHandles, ts)

/-- Nothing is written for a document. -/
def endsDocument : List Token → Bool
  | [] | .version .. :: _ | .tagDirective .. :: _ | .documentStart :: _ | .documentEnd :: _ => true
  | _ => false

/-- The node of the tokens of a text, if they are one document or none. -/
def ofTokens? (ts : List Token) : Option (Node String) := do
  if ts.isEmpty then some empty
  else
    let fuel := 2 * ts.length + 2
    let (handles, body) ← takeDirectives false [] ts
    let (node, rest) ←
      match body with
      | .documentStart :: rest =>
          if endsDocument rest then some (empty, rest) else read handles fuel false rest
      | _ => if body.length = ts.length then read handles fuel false ts else none
    if (rest.dropWhile fun t => t = .documentEnd).isEmpty then some node else none

end Node

end Yaml

end Retrieval
