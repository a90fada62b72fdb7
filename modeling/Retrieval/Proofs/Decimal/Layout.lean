/-
# Retrieval.Proofs.Decimal.Layout -- the layouts as literals

Each of the four ways to write a decimal down is the text of a literal, with a point or
an exponent (`Layout.text_means`).  The literal stands for the decimal itself but in one
case: a whole number that is written in full gets another digit behind its point, and so
is read with ten times the significand.
-/
import Retrieval.Proofs.Decimal.Shortest
import Retrieval.Proofs.Json.Literal

namespace Retrieval

set_option autoImplicit false

open Json

/-- The text with a sign before it is a float literal of this decimal. -/
def Decimal.Means (negative : Bool) (text : List Char) (d : Decimal) : Prop :=
  ∃ l : Literal, l.Written ∧ l.text = Binary.signText negative ++ text ∧ l.negative = negative ∧
    (l.fraction ≠ [] ∨ l.exponent ≠ none) ∧ l.decimal = d

namespace Layout

open Decimal

variable {L : Layout} {digits : List Nat} (negative : Bool)

theorem value_lt (bounded : AreDigits digits) : Literal.value digits < 10 ^ digits.length := by
  induction digits with
  | nil => decide
  | cons d digits ih =>
      obtain ⟨small, bounded⟩ := bounded.cons
      have rest := ih bounded
      rw [← List.singleton_append, Literal.value_append, List.length_append, pow_add]
      have first : Literal.value [d] ≤ 9 := by
        simp only [Literal.value, List.foldl_cons, List.foldl_nil]
        omega
      calc Literal.value [d] * 10 ^ digits.length + Literal.value digits
          < 9 * 10 ^ digits.length + 10 ^ digits.length :=
            Nat.add_lt_add_of_le_of_lt (Nat.mul_le_mul_right _ first) rest
        _ = 10 ^ [d].length * 10 ^ digits.length := by rw [List.length_singleton]; ring

theorem areDigits_append {a b : List Nat} (left : AreDigits a) (right : AreDigits b) :
    AreDigits (a ++ b) :=
  fun d member => (List.mem_append.1 member).elim (left d) (right d)

theorem areDigits_replicate_zero (k : Nat) : AreDigits (List.replicate k 0) := by
  intro d member
  rw [List.eq_of_mem_replicate member]
  decide

variable (bounded : AreDigits digits) (leading : ∃ d rest, digits = d :: rest ∧ 0 < d)
include bounded leading

/-- A whole number in full. -/
theorem means_whole {zeros : Nat} (short : digits.length + zeros < 19) :
    Means negative (chars digits ++ List.replicate zeros '0' ++ ['.', '0'])
      ⟨10 * (Literal.value digits * 10 ^ zeros), -1⟩ := by
  obtain ⟨d, rest, same, positive⟩ := leading
  refine ⟨⟨negative, digits ++ List.replicate zeros 0, [0], none⟩, ⟨?_, ?_, .inr ?_, ?_⟩, ?_, rfl,
    .inl (List.cons_ne_nil _ _), ?_⟩
  · exact areDigits_append bounded (areDigits_replicate_zero zeros)
  · exact areDigits_replicate_zero 1
  · exact ⟨d, rest ++ List.replicate zeros 0, by rw [same]; rfl, positive⟩
  · intro _ _ none
    cases none
  · simp only [Literal.text, if_neg (List.cons_ne_nil _ _), chars, List.map_append,
      List.map_replicate, List.append_nil, List.append_assoc]
    rfl
  · have value : Literal.value (digits ++ List.replicate zeros 0 ++ [0]) =
        10 * (Literal.value digits * 10 ^ zeros) := by
      rw [Literal.value_append_singleton, Literal.value_append, List.length_replicate,
        Literal.value_replicate_zero, Nat.add_zero, Nat.add_zero]
    have fits : 10 * (Literal.value digits * 10 ^ zeros) < UInt64.size := by
      calc 10 * (Literal.value digits * 10 ^ zeros)
          ≤ 10 * (10 ^ digits.length * 10 ^ zeros) :=
            Nat.mul_le_mul_left _ (Nat.mul_le_mul_right _ (value_lt bounded).le)
        _ = 10 ^ (digits.length + zeros + 1) := by ring
        _ ≤ 10 ^ 19 := Nat.pow_le_pow_right (by decide) (by omega)
        _ < UInt64.size := by decide
    rw [Literal.decimal_eq (by rwa [value])]
    congr 1

/-- Digits on both sides of the point. -/
theorem means_point (fits : Literal.value digits < UInt64.size) {k : Nat} (some : 0 < k)
    (inside : k < digits.length) :
    Means negative ((chars digits).take k ++ '.' :: (chars digits).drop k)
      ⟨Literal.value digits, (k : Int) - digits.length⟩ := by
  obtain ⟨d, rest, same, positive⟩ := leading
  have fraction : digits.drop k ≠ [] := by
    rw [ne_eq, List.drop_eq_nil_iff]
    omega
  refine ⟨⟨negative, digits.take k, digits.drop k, none⟩, ⟨?_, ?_, .inr ?_, ?_⟩, ?_, rfl,
    .inl fraction, ?_⟩
  · exact fun d member => bounded d (List.mem_of_mem_take member)
  · exact fun d member => bounded d (List.mem_of_mem_drop member)
  · obtain ⟨j, rfl⟩ : ∃ j, k = j + 1 := ⟨k - 1, by omega⟩
    exact ⟨d, rest.take j, by rw [same]; rfl, positive⟩
  · intro _ _ none
    cases none
  · simp only [Literal.text, if_neg fraction, chars, List.map_take, List.map_drop, List.append_nil,
      List.append_assoc]
  · rw [Literal.decimal_eq (by rwa [List.take_append_drop]), List.take_append_drop,
      List.length_drop]
    congr 1
    simp only [Literal.power]
    omega

/-- All digits behind the point, and zeros between. -/
theorem means_zeros (fits : Literal.value digits < UInt64.size) (zeros : Nat) :
    Means negative ('0' :: '.' :: List.replicate zeros '0' ++ chars digits)
      ⟨Literal.value digits, -(zeros + digits.length : Nat)⟩ := by
  obtain ⟨d, rest, same, positive⟩ := leading
  have fraction : List.replicate zeros 0 ++ digits ≠ [] := by
    rw [same]
    exact List.append_ne_nil_of_right_ne_nil _ (List.cons_ne_nil _ _)
  refine ⟨⟨negative, [0], List.replicate zeros 0 ++ digits, none⟩, ⟨?_, ?_, .inl rfl, ?_⟩, ?_, rfl,
    .inl fraction, ?_⟩
  · exact areDigits_replicate_zero 1
  · exact areDigits_append (areDigits_replicate_zero zeros) bounded
  · intro _ _ none
    cases none
  · simp only [Literal.text, if_neg fraction, chars, List.map_append, List.map_replicate,
      List.append_nil, List.append_assoc]
    rfl
  · have value : Literal.value ([0] ++ (List.replicate zeros 0 ++ digits)) =
        Literal.value digits := by
      rw [Literal.value_append, Literal.value_append, Literal.value_replicate_zero, Nat.zero_mul,
        Nat.zero_add, show Literal.value [0] = 0 from rfl, Nat.zero_mul, Nat.zero_add]
    rw [Literal.decimal_eq (by rwa [value])]
    congr 1
    simp only [Literal.power, List.length_append, List.length_replicate]
    omega

omit bounded leading in
/-- An exponent shows its sign. -/
theorem exponentText_eq (signed : L.signed = true) (e : Int) :
    L.exponentText e = (if e < 0 then '-' else '+') :: digitsOf e.natAbs := by
  by_cases natural : 0 ≤ e
  · rw [exponentText, if_pos ⟨signed, natural⟩, integerText, if_neg (by omega), if_neg (by omega)]
  · rw [exponentText, if_neg (by omega), integerText, if_pos (by omega), if_pos (by omega)]

/-- One digit before the point, and an exponent. -/
theorem means_exponent (signed : L.signed = true) (fits : Literal.value digits < UInt64.size)
    (e : Int) :
    Means negative ((if (chars digits).length = 1 then chars digits
        else (chars digits).take 1 ++ '.' :: (chars digits).drop 1) ++ 'e' :: L.exponentText e)
      ⟨Literal.value digits, e + 1 - digits.length⟩ := by
  obtain ⟨d, rest, rfl, positive⟩ := leading
  obtain ⟨places, text, bounded', value, -⟩ := exists_digits e.natAbs
  refine ⟨⟨negative, [d], rest, some (decide (e < 0), places)⟩, ⟨?_, ?_, .inr ?_, ?_⟩, ?_, rfl,
    .inr (by simp), ?_⟩
  · intro d' member
    exact bounded d' (by simp_all)
  · exact bounded.cons.2
  · exact ⟨d, [], rfl, positive⟩
  · intro _ _ same
    cases same
    refine ⟨bounded', ?_⟩
    rintro rfl
    exact absurd text Nat.toDigits_ne_nil
  · rw [exponentText_eq signed, text]
    cases rest <;> simp [Literal.text, chars]
  · rw [Literal.decimal_eq (show Literal.value ([d] ++ rest) < _ from fits)]
    congr 1
    by_cases less : e < 0 <;> simp only [less, decide_true, decide_false, Literal.power, value,
      List.length_cons] <;> omega

omit bounded leading in
/-- **What a layout writes down stands for the decimal,** in one of two ways. -/
theorem text_means (signed : L.signed = true) (window : L.integerDigits < 19)
    {d : Decimal} (positive : 0 < d.significand) (fits : d.significand < UInt64.size) :
    Means negative (L.text d) d ∨
      ∃ m : Nat, d.magnitude = m ∧ m < 10 ^ L.integerDigits ∧
        Means negative (L.text d) ⟨10 * m, -1⟩ := by
  obtain ⟨s, e⟩ := d
  dsimp only at positive fits
  obtain ⟨digits, text, bounded, value, leading⟩ := exists_digits s
  have leading := leading positive
  have length : (chars digits).length = digits.length := List.length_map _
  have some : 0 < digits.length := by
    obtain ⟨d, rest, rfl, -⟩ := leading
    exact Nat.succ_pos _
  rw [← value] at fits
  rw [Layout.text]
  dsimp only
  rw [text, length]
  by_cases whole : 0 ≤ e ∧ (digits.length : Int) + e ≤ L.integerDigits
  · -- a whole number in full
    rw [if_pos whole]
    obtain ⟨zeros, rfl⟩ := Int.eq_ofNat_of_zero_le whole.1
    refine .inr ⟨s * 10 ^ zeros, ?_, ?_, ?_⟩
    · rw [magnitude, zpow_natCast]
      push_cast
      rfl
    · calc s * 10 ^ zeros < 10 ^ digits.length * 10 ^ zeros :=
            Nat.mul_lt_mul_of_pos_right (value ▸ value_lt bounded) (by positivity)
        _ = 10 ^ (digits.length + zeros) := by rw [pow_add]
        _ ≤ 10 ^ L.integerDigits := Nat.pow_le_pow_right (by decide) (by omega)
    · rw [Int.toNat_natCast, ← value]
      exact means_whole negative bounded leading (by omega)
  left
  rw [if_neg whole]
  by_cases inside : 0 < (digits.length : Int) + e ∧ (digits.length : Int) + e ≤ L.integerDigits
  · -- the point is among the digits
    rw [if_pos inside]
    have means := means_point negative bounded leading fits
      (k := ((digits.length : Int) + e).toNat) (by omega) (by omega)
    convert means using 2
    · exact value.symm
    · omega
  rw [if_neg inside]
  split
  · -- the point is before the digits
    have means := means_zeros negative bounded leading fits
      (-((digits.length : Int) + e)).toNat
    convert means using 2
    · exact value.symm
    · omega
  · -- an exponent
    have means := means_exponent negative bounded leading signed fits
      ((digits.length : Int) + e - 1)
    rw [length] at means
    convert means using 2
    · exact value.symm
    · omega

end Layout

end Retrieval
