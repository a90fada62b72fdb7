/-
# Retrieval.Yaml.Source -- a YAML text with its anchors and references

An anchor names the node behind it, and a reference stands for the node named last
before it.  `Node.link` replaces names by numbers and refuses a reference whose name
is not there yet; a number leads to the last node that was given it.

Whoever reads a source follows references (`Source.follow`), and `Source.expand`
replaces all of them by what they stand for.  Two limits keep that within bounds: how
deeply collections may be nested, and how many references may be followed from
beginning to end, a hundred for each part of the text.
-/
import Retrieval.Entries
import Retrieval.Yaml.Node
import Retrieval.Yaml.Token.Reading

namespace Retrieval

set_option autoImplicit false

namespace Yaml

/-! ## Names as numbers -/

abbrev Linked := Node Nat

/-- The numbers of the names met so far. -/
abbrev Names := Entries String Nat

namespace Node

/-- Give an anchor the number of names that were there before it. -/
def linkAnchor (names : Names) : Option String → Option Nat × Names
  | none => (none, names)
  | some name => (some names.length, Entries.insert name names.length names)

/-- Properties with the anchor as a number. -/
def linkProperties (names : Names) (p : Properties String) : Properties Nat × Names :=
  let (anchor, names) := linkAnchor names p.anchor
  ({ anchor, tag := p.tag }, names)

mutual

/-- A node with names as numbers. -/
def link (names : Names) : Node String → Option (Linked × Names)
  | .reference name => do return (.reference (← Entries.get? name names), names)
  | .scalar p style text =>
      let (p, names) := linkProperties names p
      some (.scalar p style text, names)
  | .sequence p items => do
      let (p, names) := linkProperties names p
      let (items, names) ← linkItems names items
      return (.sequence p items, names)
  | .mapping p fields => do
      let (p, names) := linkProperties names p
      let (fields, names) ← linkFields names fields
      return (.mapping p fields, names)

def linkItems (names : Names) : List (Node String) → Option (List Linked × Names)
  | [] => some ([], names)
  | item :: rest => do
      let (item, names) ← link names item
      let (rest, names) ← linkItems names rest
      return (item :: rest, names)

def linkFields (names : Names) :
    List (Node String × Node String) → Option (List (Linked × Linked) × Names)
  | [] => some ([], names)
  | (key, value) :: rest => do
      let (key, names) ← link names key
      let (value, names) ← link names value
      let (rest, names) ← linkFields names rest
      return ((key, value) :: rest, names)

end

/-! ## Where anchors are -/

/-- The place of one node, if it has an anchor. -/
def place (anchor : Option Nat) (node : Linked) : List (Nat × Linked) :=
  match anchor with
  | none => []
  | some n => [(n, node)]

mutual

/-- The anchors of a node in the order of the text, with the nodes behind them. -/
def places : Linked → List (Nat × Linked)
  | .reference _ => []
  | .scalar p style text => place p.anchor (.scalar p style text)
  | .sequence p items => place p.anchor (.sequence p items) ++ placesOfItems items
  | .mapping p fields => place p.anchor (.mapping p fields) ++ placesOfFields fields

def placesOfItems : List Linked → List (Nat × Linked)
  | [] => []
  | item :: rest => places item ++ placesOfItems rest

def placesOfFields : List (Linked × Linked) → List (Nat × Linked)
  | [] => []
  | (key, value) :: rest => places key ++ places value ++ placesOfFields rest

end

mutual

/-- How many parts a node has: a collection counts for its start and its end. -/
def parts : Linked → Nat
  | .reference _ | .scalar .. => 1
  | .sequence _ items => 2 + partsOfItems items
  | .mapping _ fields => 2 + partsOfFields fields

def partsOfItems : List Linked → Nat
  | [] => 0
  | item :: rest => parts item + partsOfItems rest

def partsOfFields : List (Linked × Linked) → Nat
  | [] => 0
  | (key, value) :: rest => parts key + parts value + partsOfFields rest

end

end Node

/-! ## Texts -/

/-- A text as written: its node, and the nodes with anchors. -/
structure Source where
  root : Linked
  places : List (Nat × Linked)

namespace Source

def read? (text : List Char) : Option Source := do
  let node ← Node.ofTokens? (← tokens? text)
  let (root, _) ← node.link []
  return { root, places := root.places }

/-- Reading from a source.  The state is how many references may still be followed. -/
abbrev Reading := StateT Nat Option

def referenceLimit (s : Source) : Nat := 100 * s.root.parts

/-- Read from a source that nothing was read from before. -/
def run {α : Type} (s : Source) (read : Reading α) : Option α := read.run' s.referenceLimit

/-- The node that a number leads to: the last one that was given it. -/
def target (s : Source) (n : Nat) : Linked := (s.places.reverse.lookup n).getD Node.empty

/-- Follow a reference, if there is one and the limit allows it. -/
def follow (s : Source) : Linked → Reading Linked
  | .reference n => do
      let left ← get
      if left = 0 then failure
      set (left - 1)
      return s.target n
  | node => pure node

/-- How deeply collections may be nested. -/
def depthLimit : Nat := 128

/-- The tree of a node when collections may be nested `depth` deep. -/
def expand (s : Source) : Nat → Linked → Reading Tree
  | 0, node => do
      match ← s.follow node with
      | .scalar p style text => return .scalar { tag := p.tag } style text
      | _ => failure
  | depth + 1, node => do
      match ← s.follow node with
      | .scalar p style text => return .scalar { tag := p.tag } style text
      | .sequence p items => return .sequence { tag := p.tag } (← items.mapM (expand s depth))
      | .mapping p fields =>
          let fields ← fields.mapM fun (key, value) => do
            return (← expand s depth key, ← expand s depth value)
          return .mapping { tag := p.tag } fields
      | .reference _ => failure

/-- The tree of a node, `above` collections deep in the document. -/
def tree (s : Source) (above : Nat) (node : Linked) : Reading Tree :=
  expand s (depthLimit - above) node

end Source

end Yaml

end Retrieval
