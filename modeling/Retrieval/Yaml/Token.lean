/-
# Retrieval.Yaml.Token -- the tokens of a YAML text

Tokens make the layout explicit.  A block collection, which the text shows by
indentation, has a token where it starts and one where it ends; the two parts of
a mapping entry have one each, also where the text has no mark for them.
-/
import Retrieval.Text.Utf8

namespace Retrieval

set_option autoImplicit false

namespace Yaml

/-- How a scalar is written.  Only what is read differently is told apart: a
plain scalar may stand for something else than its text. -/
inductive Style where
  | plain
  | literal
  | quoted
  deriving DecidableEq, Repr

inductive Token where
  | version (major minor : Nat)
  | tagDirective (handle : String) (stem : Bytes)
  | documentStart
  | documentEnd
  | blockSequence
  | blockMapping
  | blockEnd
  | flowSequence
  | flowSequenceEnd
  | flowMapping
  | flowMappingEnd
  | entry
  | separator
  | key
  | value
  | reference (name : String)
  | anchor (name : String)
  | tag (handle : String) (suffix : Bytes)
  | scalar (style : Style) (text : String)
  deriving DecidableEq, Repr

end Yaml

end Retrieval
