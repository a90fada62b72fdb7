/-
# Retrieval.Binary.Basic -- binary floating point as exact counts of units

A binary interchange format has finitely many magnitudes, and every finite one
is a whole number of *units*, where a unit is the least positive magnitude
`2 ^ -scale`.  So the theory needs no rationals: a magnitude is named by its
`code` (the stored bits without the sign), `Format.units` gives the exact count
behind a code, and `Format.round` gives the code nearest to a quotient of
counts, a tie going to the even code.

The codes are ordered as the magnitudes are.  This is why one formula rounds
normal and subnormal numbers alike: below `2 ^ (fractionBits + 1)` units the
code *is* the count, and above it each doubling of the magnitude adds
`2 ^ fractionBits` codes.

There is one `nan`.  Signed zeros are distinct numbers.
-/

namespace Retrieval

set_option autoImplicit false

/-- A binary interchange format: stored fraction bits and exponent bits. -/
structure Format where
  fractionBits : Nat
  exponentBits : Nat
  deriving DecidableEq, Repr

namespace Format

/-- The 32-bit format, in which embeddings and distances live. -/
abbrev single : Format := ⟨23, 8⟩

/-- The 64-bit format, in which decimals are read and metadata is compared. -/
abbrev double : Format := ⟨52, 11⟩

variable (F : Format)

/-! ## Codes and units -/

/-- The number of codes in a binade. -/
def hidden : Nat := 1 <<< F.fractionBits

/-- The code of infinity; every smaller code is a finite magnitude. -/
def infinity : Nat := (1 <<< F.exponentBits - 1) * F.hidden

/-- A unit is `2 ^ -scale`. -/
def scale : Nat := 1 <<< (F.exponentBits - 1) - 2 + F.fractionBits

/-- The exact magnitude of a code, in units.  The first two binades step by one
unit; each later binade doubles the step. -/
def units (code : Nat) : Nat :=
  if code < F.hidden then code
  else (F.hidden + code % F.hidden) <<< (code / F.hidden - 1)

/-! ## Rounding -/

/-- The quotient `n / d` rounded to the nearest whole number, a half going to
the even neighbour. -/
def nearest (n d : Nat) : Nat :=
  let q := n / d
  let r := n % d
  if 2 * r < d then q else if d < 2 * r then q + 1 else q + q % 2

/-- The code nearest to `n / d` units.  It may lie past `infinity`. -/
def round (n d : Nat) : Nat :=
  let k := Nat.log2 (n / d) - F.fractionBits
  k * F.hidden + nearest n (d <<< k)

/-- The code nearest to the square root of `n` units squared. -/
def roundSqrt (n : Nat) : Nat :=
  let r := Nat.sqrt n
  let k := Nat.log2 r - F.fractionBits
  let q := r >>> k
  let middle := (2 * q + 1) <<< k
  k * F.hidden +
    (if 4 * n < middle * middle then q
     else if middle * middle < 4 * n then q + 1
     else q + q % 2)

end Format

/-- A number of the format, or the one value that is not a number. -/
inductive Binary (F : Format) where
  | nan
  | number (negative : Bool) (code : Nat) (bounded : code ≤ F.infinity)
  deriving DecidableEq, Repr

abbrev Binary32 := Binary .single

abbrev Binary64 := Binary .double

namespace Binary

variable {F : Format}

/-! ## Building and taking apart -/

/-- The number with this code; a code past infinity is infinity. -/
def ofCode (negative : Bool) (code : Nat) : Binary F :=
  .number negative (min code F.infinity) (Nat.min_le_right _ _)

def zero (negative : Bool) : Binary F := .number negative 0 (Nat.zero_le _)

def infinite (negative : Bool) : Binary F := .number negative F.infinity (Nat.le_refl _)

/-- The number nearest to `± n / d`. -/
def ofRatio (negative : Bool) (n d : Nat) : Binary F :=
  ofCode negative (F.round (n <<< F.scale) d)

/-- The number nearest to a whole number; zero is positive. -/
def ofInt (n : Int) : Binary F := ofRatio (n < 0) n.natAbs 1

instance : Inhabited (Binary F) := ⟨zero false⟩

def isFinite : Binary F → Bool
  | .nan => false
  | .number _ code _ => code < F.infinity

def isInfinite : Binary F → Bool
  | .nan => false
  | .number _ code _ => code = F.infinity

/-- Zero of either sign. -/
def isZero : Binary F → Bool
  | .nan => false
  | .number _ code _ => code = 0

/-- A count of units with its sign. -/
def signed (negative : Bool) (count : Nat) : Int := if negative then -count else count

/-! ## Format change -/

/-- The number of the format `G` nearest to `x`. -/
def convert (G : Format) : Binary F → Binary G
  | .nan => .nan
  | .number s a _ =>
      if a = F.infinity then infinite s
      else ofCode s (G.round (F.units a <<< G.scale) (1 <<< F.scale))

end Binary

end Retrieval
