/-
# Retrieval.Proofs.Json.Numeral -- printed numbers are read as numerals

The digits of a natural number are a numeral whose literal has that value
(`Numeral.scan_digitsOf`).

A float is *legible* when the decimal that is printed for it is read back as that
float.  The text of a finite float has no characters but those of numerals, so
reading it can only have read one numeral (`Binary.Legible.numeral`): it is read
the same way inside of an array as on its own.
-/
import Retrieval.Proofs.Json.Reader
import Retrieval.Json.Reading
import Retrieval.Json.Printer

namespace Retrieval

set_option autoImplicit false

namespace Json

/-! ## Natural numbers -/

theorem digit?_digitChar : ∀ d, d < 10 → digit? (Nat.digitChar d) = some d := by decide

theorem Literal.value_append_singleton (digits : List Nat) (d : Nat) :
    Literal.value (digits ++ [d]) = 10 * Literal.value digits + d := by
  simp [Literal.value, List.foldl_append]

namespace Numeral

/-- A whole number begun with these digits. -/
def ofDigits (digits : List Nat) : Numeral := { phase := .integer, integer := digits.reverse }

theorem ofDigits_step (digits : List Nat) {d : Nat} (small : d < 10) :
    (ofDigits digits).step (Nat.digitChar d) = some (ofDigits (digits ++ [d])) := by
  simp [ofDigits, step, digit?_digitChar d small]

theorem start?_digitChar {d : Nat} (positive : 0 < d) (small : d < 10) :
    start? (Nat.digitChar d) = some (ofDigits [d]) := by
  have notMinus : Nat.digitChar d ≠ '-' := by
    have : ∀ d, d < 10 → Nat.digitChar d ≠ '-' := by decide
    exact this d small
  obtain ⟨e, rfl⟩ : ∃ e, d = e + 1 := ⟨d - 1, by omega⟩
  simp [start?, notMinus, digit?_digitChar _ small, ofDigits]

theorem scan_digitsOf_pos {n : Nat} (positive : 0 < n) :
    ∃ digits, scan (digitsOf n) = some (ofDigits digits) ∧ Literal.value digits = n := by
  induction n using Nat.strongRecOn with
  | _ n ih =>
      by_cases small : n < 10
      · refine ⟨[n], ?_, by simp [Literal.value]⟩
        rw [digitsOf, Nat.toDigits_of_lt_base small]
        simp [scan, start?_digitChar positive small]
      · obtain ⟨digits, scanned, value⟩ := ih (n / 10) (by omega) (by omega)
        refine ⟨digits ++ [n % 10], ?_, ?_⟩
        · rw [digitsOf, Nat.toDigits_of_base_le (by decide) (by omega),
            scan_append_singleton _ Nat.toDigits_ne_nil]
          rw [digitsOf] at scanned
          rw [scanned, Option.bind_some, ofDigits_step _ (Nat.mod_lt n (by decide))]
        · rw [Literal.value_append_singleton, value]
          omega

/-- **The digits of a number are a numeral of that value.** -/
theorem scan_digitsOf (n : Nat) :
    ∃ numeral digits, scan (digitsOf n) = some numeral ∧
      numeral.literal? = some ⟨false, digits, [], none⟩ ∧ Literal.value digits = n := by
  rcases Nat.eq_zero_or_pos n with rfl | positive
  · exact ⟨{ phase := .zero, integer := [0] }, [0], rfl, rfl, rfl⟩
  · obtain ⟨digits, scanned, value⟩ := scan_digitsOf_pos positive
    exact ⟨ofDigits digits, digits, scanned, by simp [ofDigits, literal?], value⟩

end Numeral

/-- A literal of digits alone means their value, when that has 64 bits. -/
theorem Source.word?_number {digits : List Nat} {w : UInt64}
    (value : Literal.value digits = w.toNat) :
    (Source.number ⟨false, digits, [], none⟩).word? = some w := by
  have fits : Number.least ≤ (w.toNat : Int) ∧ (w.toNat : Int) < Number.limit := by
    have := w.toNat_lt
    simp only [Number.least, Number.limit]
    omega
  have number : Literal.number? ⟨false, digits, [], none⟩ =
      some (.integer w.toNat fits.1 fits.2) := by
    simp [Literal.number?, value, fits]
  rw [Source.word?, Source.number?, number, Option.bind_some, Number.toWord?,
    if_pos (Int.natCast_nonneg _), Int.toNat_natCast, UInt64.ofNat_toNat]

/-! ## Characters of numerals -/

/-- The characters that numerals are made of. -/
def isNumeric (c : Char) : Bool := c.isDigit || c = '-' || c = '+' || c = '.' || c = 'e'

theorem ne_of_isNumeric {c d : Char} (numeric : isNumeric c = true) (other : isNumeric d = false) :
    c ≠ d := by
  rintro rfl
  rw [numeric] at other
  cases other

theorem stepBetween_numeric {r : Reader} {c : Char} (numeric : isNumeric c = true) :
    r.stepBetween c =
      if r.wantsValue then (Numeral.start? c).map fun n => { r with lexeme := .numeral n }
      else none := by
  have other {d : Char} (h : isNumeric d = false) : c ≠ d := ne_of_isNumeric numeric h
  have notSpace : Reader.isSpace c = false := by
    simp [Reader.isSpace, other (d := ' ') rfl, other (d := '\t') rfl, other (d := '\n') rfl,
      other (d := '\r') rfl]
  cases wants : r.wantsValue <;>
    simp [Reader.stepBetween, notSpace, wants, other (d := '"') rfl, other (d := ',') rfl,
      other (d := ':') rfl, other (d := ']') rfl, other (d := '}') rfl, other (d := '[') rfl,
      other (d := '{') rfl, other (d := 't') rfl, other (d := 'f') rfl, other (d := 'n') rfl]

/-- After one numeral the reader takes no second one, so it is still within the first. -/
theorem numeral_of_run {text : List Char} (numeric : ∀ c ∈ text, isNumeric c = true)
    {m : Numeral} {r : Reader} (h : Reader.run ⟨.numeral m, [], .value⟩ text = some r) :
    ∃ n, text.foldlM Numeral.step m = some n ∧ r = ⟨.numeral n, [], .value⟩ := by
  induction text generalizing m with
  | nil =>
      cases h
      exact ⟨m, rfl, rfl⟩
  | cons c text ih =>
      rw [Reader.run_cons] at h
      obtain ⟨next, stepped, h⟩ := Option.bind_eq_some_iff.1 h
      simp only [Reader.step] at stepped
      split at stepped
      · rename_i m' continued
        cases stepped
        obtain ⟨n, scanned, rfl⟩ := ih (fun d member => numeric d (List.mem_cons_of_mem _ member)) h
        exact ⟨n, by rw [List.foldlM_cons, continued]; exact scanned, rfl⟩
      · obtain ⟨l, -, stepped⟩ := Option.bind_eq_some_iff.1 stepped
        simp [Reader.complete, stepBetween_numeric (numeric c (by simp)), Reader.wantsValue]
          at stepped

/-- What is read of characters of numerals is one numeral. -/
theorem numeral_of_read {text : List Char} (numeric : ∀ c ∈ text, isNumeric c = true) {s : Source}
    (h : Source.read text = some s) :
    ∃ n l, Numeral.scan text = some n ∧ n.literal? = some l ∧ s = .number l := by
  obtain ⟨r, ran, finished⟩ := Option.bind_eq_some_iff.1 h
  cases text with
  | nil =>
      cases ran
      cases finished
  | cons c text =>
      obtain ⟨next, stepped, ran⟩ := Option.bind_eq_some_iff.1 ran
      simp only [Reader.step, Reader.start, stepBetween_numeric (numeric c (by simp)),
        Reader.wantsValue, if_true] at stepped
      obtain ⟨m, begun, rfl⟩ := Option.map_eq_some_iff.1 stepped
      obtain ⟨n, scanned, rfl⟩ :=
        numeral_of_run (fun d member => numeric d (List.mem_cons_of_mem _ member)) ran
      obtain ⟨l, literal, rfl⟩ := Option.map_eq_some_iff.1 finished
      exact ⟨n, l, by simp [Numeral.scan, begun, scanned], literal, rfl⟩

end Json

/-! ## Floats -/

theorem isNumeric_digitsOf {n : Nat} {c : Char} (member : c ∈ digitsOf n) :
    Json.isNumeric c = true := by
  simp [Json.isNumeric, Nat.isDigit_of_mem_toDigits (by decide) (by decide) member]

theorem isNumeric_integerText {n : Int} {c : Char} (member : c ∈ integerText n) :
    Json.isNumeric c = true := by
  unfold integerText at member
  split at member
  · rcases List.mem_cons.1 member with rfl | digit
    · rfl
    · exact isNumeric_digitsOf digit
  · exact isNumeric_digitsOf member

theorem Layout.isNumeric_text {l : Layout} {d : Decimal} {c : Char} (member : c ∈ l.text d) :
    Json.isNumeric c = true := by
  have digit {n : Nat} (h : c ∈ (digitsOf d.significand).take n ∨
      c ∈ (digitsOf d.significand).drop n) : Json.isNumeric c = true :=
    isNumeric_digitsOf (h.elim List.mem_of_mem_take List.mem_of_mem_drop)
  simp only [Layout.text] at member
  split at member
  · simp only [List.mem_append, List.mem_replicate, List.mem_cons, List.not_mem_nil, or_false]
      at member
    rcases member with (whole | ⟨-, rfl⟩) | rfl | rfl
    · exact isNumeric_digitsOf whole
    all_goals rfl
  split at member
  · simp only [List.mem_append, List.mem_cons] at member
    rcases member with whole | rfl | fraction
    · exact digit (.inl whole)
    · rfl
    · exact digit (.inr fraction)
  split at member
  · simp only [List.mem_append, List.mem_replicate, List.mem_cons] at member
    rcases member with (rfl | rfl | ⟨-, rfl⟩) | fraction
    · rfl
    · rfl
    · rfl
    · exact isNumeric_digitsOf fraction
  · simp only [List.mem_append, List.mem_cons] at member
    rcases member with mantissa | rfl | exponent
    · split at mantissa
      · exact isNumeric_digitsOf mantissa
      · simp only [List.mem_append, List.mem_cons] at mantissa
        rcases mantissa with whole | rfl | fraction
        · exact digit (.inl whole)
        · rfl
        · exact digit (.inr fraction)
    · rfl
    · unfold Layout.exponentText at exponent
      split at exponent
      · rcases List.mem_cons.1 exponent with rfl | digits
        · rfl
        · exact isNumeric_integerText digits
      · exact isNumeric_integerText exponent

namespace Binary

theorem isNumeric_text {F : Format} {x : Binary F} (finite : x.isFinite = true) {l : Layout}
    {c : Char} (member : c ∈ x.text l) : Json.isNumeric c = true := by
  cases x with
  | nan => cases finite
  | number s a h =>
      have below : a ≠ F.infinity := Nat.ne_of_lt (by simpa [isFinite] using finite)
      simp only [text, if_neg below, List.mem_append] at member
      rcases member with sign | rest
      · cases s <;> simp [signText] at sign
        subst sign
        rfl
      · split at rest
        · rw [show "0.0".toList = ['0', '.', '0'] from rfl] at rest
          simp only [List.mem_cons, List.not_mem_nil, or_false] at rest
          rcases rest with rfl | rfl | rfl <;> rfl
        · exact Layout.isNumeric_text rest

/-- The decimal that is printed for a float is read back as that float. -/
def Legible (x : Binary32) : Prop :=
  (Json.Source.read (x.text .single)).bind Json.Source.single? = some x

instance (x : Binary32) : Decidable x.Legible :=
  inferInstanceAs (Decidable (_ = _))

/-- **A legible float is printed as one numeral,** which means that float. -/
theorem Legible.numeral {x : Binary32} (legible : x.Legible) (finite : x.isFinite = true) :
    ∃ numeral literal, Json.Numeral.scan (x.text .single) = some numeral ∧
      numeral.literal? = some literal ∧ (Json.Source.number literal).single? = some x := by
  obtain ⟨source, read, single⟩ := Option.bind_eq_some_iff.1 legible
  obtain ⟨numeral, literal, scanned, ended, rfl⟩ :=
    Json.numeral_of_read (fun c member => isNumeric_text finite member) read
  exact ⟨numeral, literal, scanned, ended, single⟩

end Binary

end Retrieval
