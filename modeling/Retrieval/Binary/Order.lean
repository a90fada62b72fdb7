/-
# Retrieval.Binary.Order -- comparing floats

Two orders are in use.  The *numeric* order compares magnitudes with their
signs; it leaves `nan` incomparable and takes the two zeros for equal
(`Binary.less`, `Binary.equal`).  The *ranking* order is total: negative zero
comes before positive zero, and `nan` comes after every number
(`Binary.ranksBefore`).  Both are orders of integer keys, because codes are
ordered as magnitudes are.
-/
import Retrieval.Binary.Basic

namespace Retrieval

set_option autoImplicit false

namespace Binary

variable {F : Format}

/-! ## The numeric order -/

/-- The code with its sign: the numeric order of numbers is the order of these. -/
def numericKey : Binary F → Option Int
  | .nan => none
  | .number s a _ => some (signed s a)

/-- Numerically smaller; `nan` is never comparable. -/
def less (x y : Binary F) : Bool :=
  match x.numericKey, y.numericKey with
  | some a, some b => a < b
  | _, _ => false

/-- Numerically equal; the two zeros are, `nan` never is. -/
def equal (x y : Binary F) : Bool :=
  match x.numericKey, y.numericKey with
  | some a, some b => a = b
  | _, _ => false

def lessOrEqual (x y : Binary F) : Bool := less x y || equal x y

/-! ## The ranking order -/

/-- A key for the ranking order of numbers: as the numeric key, but with the
negative numbers moved down by one so that the two zeros differ. -/
def rankKey : Binary F → Option Int
  | .nan => none
  | .number s a _ => some (if s then -(a : Int) - 1 else a)

/-- `x` ranks before `y` or in the same place. -/
def ranksBefore (x y : Binary F) : Bool :=
  match x.rankKey, y.rankKey with
  | some a, some b => a ≤ b
  | _, none => true
  | none, some _ => false

end Binary

end Retrieval
