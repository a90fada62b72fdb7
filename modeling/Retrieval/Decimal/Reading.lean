/-
# Retrieval.Decimal.Reading -- from a decimal to a 64-bit float

Two rules are in use.  `Decimal.toBinary` rounds the exact decimal once.
`Decimal.scaled` is the rule of the JSON reader: the significand becomes a
float, and the power of ten is then multiplied in or divided out, each step
rounding; a value past the largest finite float is refused, one below the least
positive float becomes zero.  The two rules can differ in the last place.
-/
import Retrieval.Decimal.Layout

namespace Retrieval

set_option autoImplicit false

namespace Decimal

/-- The float nearest to a decimal.  Exponents far outside the range of the
format are decided by the position of the leading digit. -/
def toBinary (negative : Bool) (d : Decimal) : Binary64 :=
  let top : Int := digitCount d.significand + d.exponent
  if d.significand = 0 ∨ top < -400 then Binary.zero negative
  else if 400 < top then Binary.infinite negative
  else if 0 ≤ d.exponent then
    Binary.ofRatio negative (d.significand * Nat.pow 10 d.exponent.toNat) 1
  else Binary.ofRatio negative d.significand (Nat.pow 10 (-d.exponent).toNat)

/-- The largest power of ten that is a finite float. -/
def largestPower : Nat := 308

/-- A power of ten as a float. -/
def power (e : Nat) : Binary64 := Binary.ofRatio false (Nat.pow 10 e) 1

/-- Multiply a positive float by a power of ten; `none` when the result is past
the finite floats.  A large negative power is divided out in steps, until the
value is zero or the rest of the power is small. -/
def scaleBy : Nat → Binary64 → Int → Option Binary64
  | steps, x, e =>
      if e.natAbs ≤ largestPower then
        if 0 ≤ e then
          let y := x * power e.toNat
          if y.isInfinite then none else some y
        else some (x / power (-e).toNat)
      else if x.isZero then some x
      else if 0 ≤ e then none
      else
        match steps with
        | 0 => some (Binary.zero false)
        | steps + 1 => scaleBy steps (x / power largestPower) (e + largestPower)

/-- The float of a decimal by the JSON reader's rule. -/
def scaled (negative : Bool) (d : Decimal) : Option Binary64 :=
  (scaleBy (d.exponent.natAbs / largestPower + 1) (Binary.ofInt d.significand) d.exponent).map
    fun x => if negative then -x else x

end Decimal

end Retrieval
