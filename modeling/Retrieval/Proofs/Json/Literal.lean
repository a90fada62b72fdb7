/-
# Retrieval.Proofs.Json.Literal -- literals as texts

`Literal.text` writes the digits of a literal out, and a literal whose digits are digits
is scanned as itself (`Literal.scan_text`), the integer, the fraction and the exponent
one after the other.  What a literal with a short significand means is simple: all of
its digits are one number, and the power of ten is what the point and the exponent make
together (`Literal.decimal_eq`).
-/
import Mathlib.Algebra.Order.Ring.Nat
import Retrieval.Proofs.Json.Numeral

namespace Retrieval

set_option autoImplicit false

namespace Json

/-- The characters of digits. -/
def chars (digits : List Nat) : List Char := digits.map Nat.digitChar

/-- Each of them is a decimal digit. -/
def AreDigits (digits : List Nat) : Prop := ∀ d ∈ digits, d < 10

theorem AreDigits.cons {d : Nat} {digits : List Nat} (h : AreDigits (d :: digits)) :
    d < 10 ∧ AreDigits digits :=
  ⟨h d (by simp), fun e member => h e (by simp [member])⟩

/-! ## Digits of a number -/

/-- The digits of a number are digits, have its value, and begin with a zero only for zero. -/
theorem exists_digits (n : Nat) : ∃ digits, digitsOf n = chars digits ∧ AreDigits digits ∧
    Literal.value digits = n ∧ (0 < n → ∃ d rest, digits = d :: rest ∧ 0 < d) := by
  induction n using Nat.strongRecOn with
  | _ n ih =>
      by_cases small : n < 10
      · refine ⟨[n], ?_, ?_, by simp [Literal.value], fun positive => ⟨n, [], rfl, positive⟩⟩
        · rw [digitsOf, Nat.toDigits_of_lt_base small]
          rfl
        · intro d member
          rw [List.mem_singleton.1 member]
          exact small
      · obtain ⟨digits, text, bounded, value, leading⟩ := ih (n / 10) (by omega)
        obtain ⟨d, rest, rfl, positive⟩ := leading (by omega)
        refine ⟨d :: rest ++ [n % 10], ?_, ?_, ?_, fun _ => ⟨d, rest ++ [n % 10], rfl, positive⟩⟩
        · rw [digitsOf] at text ⊢
          rw [Nat.toDigits_of_base_le (by decide) (by omega), text]
          simp [chars]
        · intro e member
          rcases List.mem_append.1 member with before | last
          · exact bounded e before
          · rw [List.mem_singleton.1 last]
            exact Nat.mod_lt n (by decide)
        · rw [Literal.value_append_singleton, value]
          omega

namespace Literal

theorem foldl_value (digits : List Nat) (n : Nat) :
    digits.foldl (fun n d => 10 * n + d) n = n * 10 ^ digits.length + value digits := by
  induction digits generalizing n with
  | nil => simp [value]
  | cons d digits ih =>
      have whole : value (d :: digits) = d * 10 ^ digits.length + value digits := by
        rw [value, List.foldl_cons, ih, Nat.mul_zero, Nat.zero_add]
      rw [List.foldl_cons, ih, whole, List.length_cons, Nat.pow_succ, Nat.add_mul]
      rw [Nat.add_assoc, Nat.mul_comm (10 ^ _) 10, ← Nat.mul_assoc, Nat.mul_comm n]

theorem value_append (a b : List Nat) :
    value (a ++ b) = value a * 10 ^ b.length + value b := by
  rw [value, List.foldl_append, foldl_value]
  rfl

@[simp] theorem value_replicate_zero (k : Nat) : value (List.replicate k 0) = 0 := by
  induction k with
  | zero => rfl
  | succ k ih => rw [List.replicate_succ', value_append_singleton, ih]

/-! ## Texts -/

/-- The characters of a literal. -/
def text (l : Literal) : List Char :=
  Binary.signText l.negative ++ chars l.integer ++
    (if l.fraction = [] then [] else '.' :: chars l.fraction) ++
    match l.exponent with
    | none => []
    | some (negative, digits) => 'e' :: (if negative then '-' else '+') :: chars digits

/-- The literal can be written down: its digits are digits, no zero comes first but on its
own, and an exponent has digits. -/
structure Written (l : Literal) : Prop where
  integer : AreDigits l.integer
  fraction : AreDigits l.fraction
  leading : l.integer = [0] ∨ ∃ d rest, l.integer = d :: rest ∧ 0 < d
  exponent : ∀ negative digits, l.exponent = some (negative, digits) →
    AreDigits digits ∧ digits ≠ []

end Literal

namespace Numeral

theorem scan_append {a : List Char} (b : List Char) (nonempty : a ≠ []) :
    scan (a ++ b) = (scan a).bind fun n => b.foldlM step n := by
  cases a with
  | nil => exact absurd rfl nonempty
  | cons c rest =>
      rw [List.cons_append, scan, scan, Option.bind_assoc]
      simp only [List.foldlM_append]
      rfl

theorem run_cons {n next : Numeral} {c : Char} (rest : List Char) (stepped : n.step c = some next) :
    (c :: rest).foldlM step n = rest.foldlM step next := by
  rw [List.foldlM_cons, stepped]
  rfl

/-- More digits of the part that is being read. -/
def takes (n : Numeral) (digits : List Nat) : Numeral :=
  match n.phase with
  | .integer => { n with integer := digits.reverse ++ n.integer }
  | .fraction => { n with fraction := digits.reverse ++ n.fraction }
  | .exponent => { n with exponent := digits.reverse ++ n.exponent }
  | _ => n

theorem run_digits {digits : List Nat} (bounded : AreDigits digits) (n : Numeral)
    (phase : n.phase = .integer ∨ n.phase = .fraction ∨ n.phase = .exponent) :
    (chars digits).foldlM step n = some (n.takes digits) := by
  induction digits generalizing n with
  | nil =>
      obtain ⟨_, _, _, _, _, _⟩ := n
      rcases phase with rfl | rfl | rfl <;> rfl
  | cons d digits ih =>
      obtain ⟨small, bounded⟩ := bounded.cons
      have next : n.step (Nat.digitChar d) = some (n.takes [d]) := by
        rcases phase with phase | phase | phase <;>
          simp [step, takes, phase, digit?_digitChar d small]
      have stays : (n.takes [d]).phase = n.phase := by
        rcases phase with phase | phase | phase <;> simp [takes, phase]
      refine (run_cons _ next).trans ((ih bounded _ (stays.symm ▸ phase)).trans ?_)
      refine congrArg some ?_
      rcases phase with phase | phase | phase <;> simp [takes, phase]

/-- The numeral of an integer. -/
def whole (negative : Bool) (integer : List Nat) : Numeral :=
  { phase := if integer = [0] then .zero else .integer, negative, integer := integer.reverse }

theorem scan_integer (negative : Bool) {integer : List Nat} (bounded : AreDigits integer)
    (leading : integer = [0] ∨ ∃ d rest, integer = d :: rest ∧ 0 < d) :
    scan (Binary.signText negative ++ chars integer) = some (whole negative integer) := by
  rcases leading with rfl | ⟨d, rest, rfl, positive⟩
  · cases negative <;> rfl
  · obtain ⟨small, bounded⟩ := bounded.cons
    have nonzero : d :: rest ≠ [0] := by
      intro same
      cases same
      exact absurd positive (Nat.lt_irrefl 0)
    have begun : scan (Binary.signText negative ++ [Nat.digitChar d]) =
        some { phase := .integer, negative, integer := [d] } := by
      obtain ⟨e, rfl⟩ : ∃ e, d = e + 1 := ⟨d - 1, by omega⟩
      cases negative with
      | false =>
        simp [scan, Binary.signText, start?_digitChar positive small, ofDigits]
      | true => simp [scan, Binary.signText, start?, step, digit?_digitChar _ small]
    have split : Binary.signText negative ++ chars (d :: rest) =
        (Binary.signText negative ++ [Nat.digitChar d]) ++ chars rest := by
      rw [List.append_assoc]
      rfl
    rw [split, scan_append _ (by simp), begun, Option.bind_some, run_digits bounded _ (.inl rfl)]
    simp [takes, whole, nonzero]

/-- A point and digits behind it. -/
theorem run_point {fraction : List Nat} (bounded : AreDigits fraction) (some' : fraction ≠ [])
    (n : Numeral) (phase : n.phase = .zero ∨ n.phase = .integer) (empty : n.fraction = []) :
    ('.' :: chars fraction).foldlM step n =
      some { n with phase := .fraction, fraction := fraction.reverse } := by
  obtain ⟨d, rest, rfl⟩ := List.exists_cons_of_ne_nil some'
  obtain ⟨small, bounded⟩ := bounded.cons
  have point : n.step '.' = some { n with phase := .point } := by
    have : digit? '.' = none := rfl
    rcases phase with phase | phase <;> simp [step, phase, this]
  have first : step { n with phase := .point } (Nat.digitChar d) =
      some { n with phase := .fraction, fraction := [d] } := by
    simp [step, digit?_digitChar d small, empty]
  refine (run_cons _ point).trans ((run_cons _ first).trans ?_)
  exact (run_digits bounded _ (.inr (.inl rfl))).trans (by simp [takes])

/-- An exponent. -/
theorem run_exponent (negative : Bool) {digits : List Nat} (bounded : AreDigits digits)
    (some' : digits ≠ []) (n : Numeral)
    (phase : n.phase = .zero ∨ n.phase = .integer ∨ n.phase = .fraction)
    (empty : n.exponent = []) (unsigned : n.exponentNegative = false) :
    ('e' :: (if negative then '-' else '+') :: chars digits).foldlM step n =
      some { n with phase := .exponent, exponentNegative := negative,
                    exponent := digits.reverse } := by
  obtain ⟨d, rest, rfl⟩ := List.exists_cons_of_ne_nil some'
  obtain ⟨small, bounded⟩ := bounded.cons
  have mark : n.step 'e' = some { n with phase := .exponentMark } := by
    have : digit? 'e' = none := rfl
    rcases phase with phase | phase | phase <;> simp [step, phase, this]
  have sign : step { n with phase := .exponentMark } (if negative then '-' else '+') =
      some { n with phase := .exponentSign, exponentNegative := negative } := by
    have minus : digit? '-' = none := rfl
    have plus : digit? '+' = none := rfl
    cases negative <;> simp [step, minus, plus, unsigned]
  have first : step { n with phase := .exponentSign, exponentNegative := negative }
      (Nat.digitChar d) = some { n with phase := .exponent, exponentNegative := negative,
                                        exponent := [d] } := by
    simp [step, digit?_digitChar d small, empty]
  refine (run_cons _ mark).trans ((run_cons _ sign).trans ((run_cons _ first).trans ?_))
  exact (run_digits bounded _ (.inr (.inr rfl))).trans (by simp [takes])

end Numeral

namespace Literal

/-- The integer and the fraction. -/
theorem scan_mantissa {l : Literal} (written : l.Written) : ∃ n : Numeral,
    Numeral.scan (Binary.signText l.negative ++ chars l.integer ++
      (if l.fraction = [] then [] else '.' :: chars l.fraction)) = some n ∧
    (n.phase = .zero ∨ n.phase = .integer ∨ n.phase = .fraction) ∧
    n.negative = l.negative ∧ n.integer = l.integer.reverse ∧ n.fraction = l.fraction.reverse ∧
    n.exponentNegative = false ∧ n.exponent = [] := by
  have whole := Numeral.scan_integer l.negative written.integer written.leading
  have phase : (Numeral.whole l.negative l.integer).phase = .zero ∨
      (Numeral.whole l.negative l.integer).phase = .integer := by
    unfold Numeral.whole
    split
    · exact .inl rfl
    · exact .inr rfl
  have nonempty : Binary.signText l.negative ++ chars l.integer ≠ [] := by
    intro empty
    rw [empty] at whole
    cases whole
  rw [Numeral.scan_append _ nonempty, whole, Option.bind_some]
  by_cases none : l.fraction = []
  · rw [if_pos none, none]
    refine ⟨_, rfl, ?_, rfl, rfl, rfl, rfl, rfl⟩
    rcases phase with zero | integer
    · exact .inl zero
    · exact .inr (.inl integer)
  · rw [if_neg none]
    exact ⟨_, Numeral.run_point written.fraction none _ phase rfl, .inr (.inr rfl), rfl, rfl, rfl,
      rfl, rfl⟩

/-- **A literal that is written down is scanned as itself.** -/
theorem scan_text {l : Literal} (written : l.Written) :
    ∃ n, Numeral.scan l.text = some n ∧ n.literal? = some l := by
  obtain ⟨n, mantissa, phase, negative, integer, fraction, unsigned, empty⟩ :=
    scan_mantissa written
  obtain ⟨s, i, f, exponent⟩ := l
  dsimp only at negative integer fraction mantissa
  cases exponent with
  | none =>
      refine ⟨n, by rw [text, List.append_nil]; exact mantissa, ?_⟩
      rcases phase with phase | phase | phase <;>
        simp [Numeral.literal?, phase, negative, integer, fraction]
  | some exponent =>
      obtain ⟨minus, digits⟩ := exponent
      obtain ⟨bounded, some'⟩ := written.exponent minus digits rfl
      have run := Numeral.run_exponent minus bounded some' n phase empty unsigned
      have nonempty : Binary.signText s ++ chars i ++
          (if f = [] then [] else '.' :: chars f) ≠ [] := by
        intro none
        rw [none] at mantissa
        cases mantissa
      have scanned := Numeral.scan_append
        ('e' :: (if minus then '-' else '+') :: chars digits) nonempty
      rw [mantissa, Option.bind_some, run] at scanned
      refine ⟨_, scanned, ?_⟩
      simp [Numeral.literal?, negative, integer, fraction]

/-! ## What a literal means -/

/-- Digits that fit are all absorbed. -/
theorem absorb_eq {digits : List Nat} {n : Nat}
    (fits : n * 10 ^ digits.length + value digits < UInt64.size) :
    absorb n digits = (n * 10 ^ digits.length + value digits, []) := by
  induction digits generalizing n with
  | nil => simp [absorb, value]
  | cons d digits ih =>
      have same : n * 10 ^ (d :: digits).length + value (d :: digits) =
          (10 * n + d) * 10 ^ digits.length + value digits := by
        rw [← foldl_value, ← foldl_value, List.foldl_cons]
      have least : 10 * n + d ≤ (10 * n + d) * 10 ^ digits.length :=
        Nat.le_mul_of_pos_right _ (Nat.pow_pos (by decide))
      rw [same] at fits ⊢
      rw [absorb, if_pos (by omega), ih fits]

/-- The power of ten of an exponent. -/
def power : Option (Bool × List Nat) → Int
  | none => 0
  | some (true, digits) => -(value digits : Int)
  | some (false, digits) => value digits

/-- **A literal whose digits fit 64 bits means all of them.** -/
theorem decimal_eq {l : Literal} (fits : value (l.integer ++ l.fraction) < UInt64.size) :
    l.decimal = ⟨value (l.integer ++ l.fraction), power l.exponent - l.fraction.length⟩ := by
  rw [value_append] at fits ⊢
  have least : value l.integer ≤ value l.integer * 10 ^ l.fraction.length :=
    Nat.le_mul_of_pos_right _ (Nat.pow_pos (by decide))
  have first : absorb 0 l.integer = (value l.integer, []) := by
    rw [absorb_eq (by omega), Nat.zero_mul, Nat.zero_add]
  rw [decimal, first]
  dsimp only
  rw [absorb_eq fits]
  congr 1
  rcases l.exponent with _ | ⟨_ | _, digits⟩ <;> simp only [power, List.length_nil] <;> omega

/-- A literal with a point or an exponent is a float. -/
theorem number?_eq {l : Literal} (float : l.fraction ≠ [] ∨ l.exponent ≠ none) :
    l.number? = (l.decimal.scaled l.negative).map .float := by
  rw [number?, dif_neg]
  rintro ⟨whole, plain, -⟩
  exact float.elim (· whole) (· plain)

end Literal

end Json

end Retrieval
