/-
# Retrieval.Decimal.Layout -- where the point stands

The digits of a float are decided in `Retrieval.Decimal.Shortest`; here they are
written down.  A *layout* says for which positions of the point the number is
written out in full, and outside that window it is written with an exponent.
Either way the text shows that it is no integer: it has a point or an exponent.

`Binary.fixed` is the other way to write a float, with a given number of places,
a half going to the even digit of the exact value.
-/
import Retrieval.Decimal.Shortest
import Retrieval.Binary.Arithmetic

namespace Retrieval

set_option autoImplicit false

def digitsOf (n : Nat) : List Char := Nat.toDigits 10 n

def integerText (n : Int) : List Char :=
  if n < 0 then '-' :: digitsOf n.natAbs else digitsOf n.natAbs

/-- The window of positions of the point in which a number is written in full:
at most `integerDigits` digits before it, or fewer than `leadingZeros` zeros
between it and the first digit.  Outside of it there is an exponent, and
`signed` says whether a positive one shows its sign. -/
structure Layout where
  integerDigits : Nat
  leadingZeros : Nat
  signed : Bool

namespace Layout

/-- 32-bit floats are written in full below `10 ^ 13` and from `10 ^ -6`. -/
def single : Layout := ⟨13, 6, true⟩

/-- 64-bit floats are written in full below `10 ^ 16` and from `10 ^ -5`. -/
def double : Layout := ⟨16, 5, true⟩

def exponentText (l : Layout) (e : Int) : List Char :=
  if l.signed ∧ 0 ≤ e then '+' :: integerText e else integerText e

/-- The text of a decimal; a point or an exponent always shows.  The name
`point` stands for the position of the point, counted from the first digit. -/
def text (l : Layout) (d : Decimal) : List Char :=
  let digits := digitsOf d.significand
  let point : Int := digits.length + d.exponent
  if 0 ≤ d.exponent ∧ point ≤ l.integerDigits then
    digits ++ List.replicate d.exponent.toNat '0' ++ ['.', '0']
  else if 0 < point ∧ point ≤ l.integerDigits then
    digits.take point.toNat ++ '.' :: digits.drop point.toNat
  else if -(l.leadingZeros : Int) < point ∧ point ≤ 0 then
    '0' :: '.' :: List.replicate (-point).toNat '0' ++ digits
  else
    let mantissa := if digits.length = 1 then digits else digits.take 1 ++ '.' :: digits.drop 1
    mantissa ++ 'e' :: l.exponentText (point - 1)

end Layout

namespace Binary

variable {F : Format}

def signText (negative : Bool) : List Char := if negative then ['-'] else []

/-- The shortest text of a finite number; the others have a word. -/
def text (l : Layout) : Binary F → List Char
  | .nan => "NaN".toList
  | .number s a _ =>
      signText s ++
        (if a = F.infinity then "inf".toList
         else if a = 0 then "0.0".toList
         else l.text (F.shortest a))

/-- The text with a fixed, positive number of places. -/
def fixed (places : Nat) : Binary F → List Char
  | .nan => "NaN".toList
  | .number s a _ =>
      signText s ++
        (if a = F.infinity then "inf".toList
         else
           let digits := digitsOf (Format.nearest (F.units a * Nat.pow 10 places) (1 <<< F.scale))
           let padded := List.replicate (places + 1 - digits.length) '0' ++ digits
           padded.take (padded.length - places) ++
             '.' :: padded.drop (padded.length - places))

end Binary

end Retrieval
