/-
# Retrieval.Binary.Arithmetic -- one rounding per operation

Each operation forms the exact result in units and rounds it once.  A sum of two
numbers is a whole count; a product of counts is over `2 ^ scale`; a quotient of
counts is times `2 ^ scale`; and a square root is that of the count times
`2 ^ scale`.  What is left are the cases that are no numbers: `∞ - ∞`, `0 * ∞`,
`0 / 0`, `∞ / ∞` and the root of a negative number give `nan`.

An exact sum of zero is negative only when both terms are negative zeros, so
`zero true` is the neutral element of addition and the start of every sum.
-/
import Retrieval.Binary.Basic

namespace Retrieval

set_option autoImplicit false

namespace Binary

variable {F : Format}

def neg : Binary F → Binary F
  | .nan => .nan
  | .number s a h => .number (!s) a h

def add : Binary F → Binary F → Binary F
  | .nan, _ => .nan
  | .number .., .nan => .nan
  | .number s a ha, .number t b hb =>
      if a = F.infinity then
        if b = F.infinity ∧ s ≠ t then .nan else .number s a ha
      else if b = F.infinity then .number t b hb
      else
        let sum := signed s (F.units a) + signed t (F.units b)
        if sum = 0 then zero (s && t)
        else ofCode (sum < 0) (F.round sum.natAbs 1)

/-- The difference: the sum with the second sign turned round. -/
def sub (x y : Binary F) : Binary F := add x (neg y)

def mul : Binary F → Binary F → Binary F
  | .nan, _ => .nan
  | .number .., .nan => .nan
  | .number s a _, .number t b _ =>
      if a = F.infinity ∨ b = F.infinity then
        if a = 0 ∨ b = 0 then .nan else infinite (s != t)
      else ofCode (s != t) (F.round (F.units a * F.units b) (1 <<< F.scale))

def div : Binary F → Binary F → Binary F
  | .nan, _ => .nan
  | .number .., .nan => .nan
  | .number s a _, .number t b _ =>
      if a = F.infinity then
        if b = F.infinity then .nan else infinite (s != t)
      else if b = F.infinity then zero (s != t)
      else if b = 0 then
        if a = 0 then .nan else infinite (s != t)
      else ofCode (s != t) (F.round (F.units a <<< F.scale) (F.units b))

/-- The square root; the root of a zero is that zero. -/
def sqrt : Binary F → Binary F
  | .nan => .nan
  | .number s a h =>
      if a = 0 then .number s a h
      else if s then .nan
      else if a = F.infinity then .number s a h
      else ofCode false (F.roundSqrt (F.units a <<< F.scale))

instance : Neg (Binary F) := ⟨neg⟩
instance : Add (Binary F) := ⟨add⟩
instance : Sub (Binary F) := ⟨sub⟩
instance : Mul (Binary F) := ⟨mul⟩
instance : Div (Binary F) := ⟨div⟩

/-- The sum of a list from the left, one rounding per term. -/
def sum (xs : List (Binary F)) : Binary F := xs.foldl (· + ·) (zero true)

end Binary

end Retrieval
