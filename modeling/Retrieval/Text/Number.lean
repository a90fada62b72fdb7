/-
# Retrieval.Text.Number -- natural numbers as digits

A natural number is written as one digit or more in a base up to sixteen.  Leading
zeros do not matter, and nothing but digits is read.
-/

namespace Retrieval

set_option autoImplicit false

namespace Text

/-- The value of a digit in base sixteen, in either case. -/
def digit? (c : Char) : Option Nat :=
  if '0' ≤ c ∧ c ≤ '9' then some (c.toNat - '0'.toNat)
  else if 'a' ≤ c ∧ c ≤ 'f' then some (c.toNat - 'a'.toNat + 10)
  else if 'A' ≤ c ∧ c ≤ 'F' then some (c.toNat - 'A'.toNat + 10)
  else none

/-- The number that digits in a base make; there has to be one at least. -/
def number? (base : Nat) (text : List Char) : Option Nat :=
  if text.isEmpty then none
  else
    text.foldlM
      (fun n c => do
        let d ← digit? c
        if d < base then some (base * n + d) else none) 0

/-- The natural number of 64 bits of a text, which may have a plus sign. -/
def word? (text : List Char) : Option UInt64 :=
  let unsigned :=
    match text with
    | '+' :: rest => rest
    | _ => text
  (number? 10 unsigned).bind fun n => if n < UInt64.size then some (UInt64.ofNat n) else none

end Text

end Retrieval
