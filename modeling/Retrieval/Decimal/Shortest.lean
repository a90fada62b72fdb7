/-
# Retrieval.Decimal.Shortest -- the fewest digits that read back

A finite positive float owns an interval of the line: the points nearer to it
than to its two neighbours, the ends included exactly when its code is even,
because a tie goes to the even code.  `Binary.shortest` gives the decimal with
the fewest digits in that interval, of several the nearest to the float, and of
two equally near the one with an even last digit.

A grid `10 ^ e` meets the interval exactly when one of the two grid points next
to the float lies in it.  So the search walks from the coarsest grid down and
stops at the first grid with such a point.  It always stops: on the grid
`10 ^ -scale` the float itself is a point.
-/
import Retrieval.Binary.Basic

namespace Retrieval

set_option autoImplicit false

/-- The number `significand * 10 ^ exponent`. -/
structure Decimal where
  significand : Nat
  exponent : Int
  deriving DecidableEq, Repr

namespace Decimal

def digitCount (n : Nat) : Nat := (Nat.toDigits 10 n).length

/-- A grid `10 ^ exponent` in half units of a format: the quotient `num / den`. -/
structure Grid where
  num : Nat
  den : Nat

/-- The grid `10 ^ e` measured in half units of the format `F`. -/
def grid (F : Format) (e : Int) : Grid where
  num := Nat.pow 10 e.toNat <<< (F.scale + 1)
  den := Nat.pow 10 (-e).toNat

end Decimal

namespace Format

open Decimal

variable (F : Format)

/-- The lower end of the interval of a positive code, in half units. -/
def lowerEnd (code : Nat) : Nat := F.units (code - 1) + F.units code

/-- The upper end of the interval of a code, in half units. -/
def upperEnd (code : Nat) : Nat := F.units code + F.units (code + 1)

/-- Whether the point `s` of a grid lies in the interval of `code`. -/
def owns (code : Nat) (g : Grid) (s : Nat) : Bool :=
  if code % 2 = 0 then
    F.lowerEnd code * g.den ≤ s * g.num ∧ s * g.num ≤ F.upperEnd code * g.den
  else
    F.lowerEnd code * g.den < s * g.num ∧ s * g.num < F.upperEnd code * g.den

/-- The point of a grid that is owned by `code` and nearest to it, if there is one. -/
def ownedPoint (code : Nat) (g : Grid) : Option Nat :=
  let here := 2 * F.units code * g.den
  let below := here / g.num
  let above := below + 1
  if F.owns code g below then
    if F.owns code g above then
      let down := here - below * g.num
      let up := above * g.num - here
      if down < up then some below
      else if up < down then some above
      else some (if below % 2 = 0 then below else above)
    else some below
  else if F.owns code g above then some above
  else none

/-- The first owned point on the grids `10 ^ e`, `10 ^ (e - 1)`, ..., or the
last grid's point below when none of `steps` grids has one. -/
def search (code : Nat) : Nat → Int → Decimal
  | 0, e => ⟨2 * F.units code * (grid F e).den / (grid F e).num, e⟩
  | steps + 1, e =>
      match F.ownedPoint code (grid F e) with
      | some s => ⟨s, e⟩
      | none => search code steps (e - 1)

/-- So many decimal places that a positive code is one at least when the point is
moved behind them: each place is more than three halvings. -/
def places (code : Nat) : Nat := (F.scale - Nat.log2 (F.units code)) / 3 + 1

/-- The least exponent whose power of ten exceeds the magnitude. -/
def leadingExponent (code : Nat) : Int :=
  let moved := (F.units code * Nat.pow 10 (F.places code)) >>> F.scale
  digitCount moved - F.places code

/-- The decimal with the fewest digits that reads back as a positive code. -/
def shortest (code : Nat) : Decimal :=
  if code = 0 then ⟨0, 0⟩
  else
    let e := F.leadingExponent code
    F.search code (e + F.scale).toNat e

end Format

end Retrieval
