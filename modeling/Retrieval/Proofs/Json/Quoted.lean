/-
# Retrieval.Proofs.Json.Quoted -- strings and arrays that are read back

A string is written character by character, each as itself, behind a backslash, or as a
unit in hexadecimal, and every way of writing is taken up as one unit of the string that
is read (`Reader.run_escape`).  None of the units is half a surrogate pair, so they mean
the string again (`stringOf?_unitsOf`).

`Json.Reads` says that a text stands for a source wherever a value may begin.  It holds of
quoted strings, and of arrays whose items it holds of (`Reads.array`).
-/
import Mathlib.Data.List.Forall2
import Mathlib.Tactic.SplitIfs
import Retrieval.Json.Printer
import Retrieval.Json.Reading
import Retrieval.Proofs.Json.Reader

namespace Retrieval

set_option autoImplicit false

namespace Json

/-! ## Characters -/

/-- Whether a character is written in hexadecimal: a control character without a letter. -/
def isCoded (c : Char) : Bool :=
  c.toNat < 0x20 && c ∉ ['\x08', '\x0c', '\n', '\r', '\t']

/-- The unit that a character is read as. -/
def unitOf (c : Char) : CodeUnit := if isCoded c then .escaped c.toNat else .plain c

/-- The units that a string is read as. -/
def unitsOf (s : String) : List CodeUnit := s.toList.map unitOf

/-- A digit in base sixteen is read. -/
theorem digit?_hexDigit (n : Nat) : Text.digit? (hexDigit n) = some (n % 16) := by
  have digits : ∀ d : Fin 16, Text.digit? (Nat.digitChar d) = some d.val := by decide
  exact digits ⟨n % 16, Nat.mod_lt n (by decide)⟩

namespace Reader

variable {units : List CodeUnit} {stack : List Frame} {expect : Expect}

/-- A control character in hexadecimal is taken up as its number. -/
theorem run_coded {n : Nat} (small : n < 0x100) :
    Reader.run ⟨.text units, stack, expect⟩
        ['\\', 'u', '0', '0', hexDigit (n / 16), hexDigit n] =
      some ⟨.text (.escaped n :: units), stack, expect⟩ := by
  have high : Reader.step ⟨.hex units 0 2, stack, expect⟩ (hexDigit (n / 16)) =
      some ⟨.hex units (n / 16 % 16) 1, stack, expect⟩ := by
    simp [Reader.step, digit?_hexDigit]
  have low : Reader.step ⟨.hex units (n / 16 % 16) 1, stack, expect⟩ (hexDigit n) =
      some ⟨.text (.escaped n :: units), stack, expect⟩ := by
    have value : n / 16 % 16 * 16 + n % 16 = n := by omega
    simp [Reader.step, digit?_hexDigit, value]
  have begun : Reader.run ⟨.text units, stack, expect⟩ ['\\', 'u', '0', '0'] =
      some ⟨.hex units 0 2, stack, expect⟩ := rfl
  have split : ['\\', 'u', '0', '0', hexDigit (n / 16), hexDigit n] =
      ['\\', 'u', '0', '0'] ++ [hexDigit (n / 16), hexDigit n] := rfl
  rw [split, run_append_of_eq begun, run_cons, high, Option.bind_some, run_cons, low]
  rfl

/-- **A character inside a string is taken up as one unit.** -/
theorem run_escape (c : Char) :
    Reader.run ⟨.text units, stack, expect⟩ (escape c) =
      some ⟨.text (unitOf c :: units), stack, expect⟩ := by
  unfold escape
  split_ifs with quote backslash back feed line return' tab control
  all_goals first | (subst c; rfl) | skip
  · have coded : isCoded c = true := by
      simp [isCoded, control, back, feed, line, return', tab]
    rw [unitOf, if_pos coded]
    exact run_coded (by omega)
  · have plain : isCoded c = false := by simp [isCoded, control]
    rw [unitOf, plain, run_cons]
    simp [Reader.step, quote, backslash, control]

/-- The characters of a string, one after the other. -/
theorem run_escapes (cs : List Char) :
    Reader.run ⟨.text units, stack, expect⟩ (cs.flatMap escape) =
      some ⟨.text ((cs.map unitOf).reverse ++ units), stack, expect⟩ := by
  induction cs generalizing units with
  | nil => rfl
  | cons c cs ih =>
      rw [List.flatMap_cons, run_append_of_eq (run_escape c), ih]
      simp

/-- A quoted string is taken up whole, as a value or as a name. -/
theorem run_quoted (s : String)
    (begins : (wantsValue ⟨.between, stack, expect⟩ || wantsName ⟨.between, stack, expect⟩) =
      true) :
    Reader.run ⟨.between, stack, expect⟩ (quoted s) =
      completeText ⟨.between, stack, expect⟩ (unitsOf s) := by
  have begun : Reader.run ⟨.between, stack, expect⟩ ['"'] = some ⟨.text [], stack, expect⟩ := by
    rw [run_cons]
    simp [Reader.step, stepBetween, isSpace, begins]
  rw [quoted, ← List.singleton_append, List.append_assoc, run_append_of_eq begun,
    run_append_of_eq (run_escapes s.toList), run_cons, List.append_nil]
  simp only [Reader.step, if_true, List.reverse_reverse]
  exact Option.bind_fun_some _

/-- A quoted string is taken up as a name where one may stand. -/
theorem run_name (s : String) {done : List (List CodeUnit × Source)}
    (wants : wantsName ⟨.between, .fields done :: stack, expect⟩ = true) :
    Reader.run ⟨.between, .fields done :: stack, expect⟩ (quoted s ++ [':']) =
      some ⟨.between, .field done (unitsOf s) :: stack, .value⟩ := by
  have named : Reader.run ⟨.between, .fields done :: stack, expect⟩ (quoted s) =
      some ⟨.between, .field done (unitsOf s) :: stack, .colon⟩ := by
    rw [run_quoted s (by rw [wants, Bool.or_true])]
    cases expect <;> first | rfl | cases wants
  rw [run_append_of_eq named]
  rfl

end Reader

/-! ## Texts of values -/

/-- A text is read as a source wherever a value may begin. -/
def Reads (text : List Char) (source : Source) : Prop :=
  ∀ stack expect, Reader.wantsValue ⟨.between, stack, expect⟩ = true →
    Reader.run ⟨.between, stack, expect⟩ text = Reader.complete stack source

theorem reads_quoted (s : String) : Reads (quoted s) (.string (unitsOf s)) := by
  intro stack expect wants
  rw [Reader.run_quoted s (by rw [wants, Bool.true_or]), Reader.completeText, if_pos wants]

/-- Items with commas between them, and the bracket behind them. -/
theorem run_items {texts : List (List Char)} {sources : List Source}
    (reads : List.Forall₂ Reads texts sources) (nonempty : texts ≠ []) (done : List Source)
    (stack : List Frame) (expect : Expect)
    (wants : Reader.wantsValue ⟨.between, .items done :: stack, expect⟩ = true) :
    Reader.run ⟨.between, .items done :: stack, expect⟩ (commas texts ++ [']']) =
      Reader.complete stack (.array (done.reverse ++ sources)) := by
  induction reads generalizing done expect with
  | nil => exact absurd rfl nonempty
  | @cons text source texts sources first rest ih =>
      have taken : Reader.run ⟨.between, .items done :: stack, expect⟩ text =
          some ⟨.between, .items (source :: done) :: stack, .separator⟩ :=
        first (.items done :: stack) expect wants
      cases rest with
      | nil =>
          have closed : Reader.run ⟨.between, .items (source :: done) :: stack, .separator⟩ [']'] =
              Reader.complete stack (.array (source :: done).reverse) := Option.bind_fun_some _
          rw [commas, Reader.run_append_of_eq taken, closed, List.reverse_cons]
      | cons second more =>
          have later := ih (List.cons_ne_nil _ _) (source :: done) .value rfl
          have comma (rest : List Char) :
              Reader.run ⟨.between, .items (source :: done) :: stack, .separator⟩ (',' :: rest) =
                Reader.run ⟨.between, .items (source :: done) :: stack, .value⟩ rest := rfl
          simp only [commas, List.append_assoc, List.cons_append] at later ⊢
          rw [Reader.run_append_of_eq taken, comma, later]
          simp

/-- **An array is read when its items are.** -/
theorem Reads.array {texts : List (List Char)} {sources : List Source}
    (reads : List.Forall₂ Reads texts sources) :
    Reads ('[' :: commas texts ++ [']']) (.array sources) := by
  intro stack expect wants
  have opened : Reader.step ⟨.between, stack, expect⟩ '[' =
      some ⟨.between, .items [] :: stack, .valueOrClose⟩ := by
    simp [Reader.step, Reader.stepBetween, Reader.isSpace, wants]
  rw [List.cons_append, Reader.run_cons, opened, Option.bind_some]
  cases reads with
  | nil => exact Option.bind_fun_some _
  | cons first rest => exact run_items (.cons first rest) (List.cons_ne_nil _ _) [] _ _ rfl

/-- **A field is read when its value is.** -/
theorem Reads.field {text : List Char} {source : Source} (reads : Reads text source) (name : String)
    (done : List (List CodeUnit × Source)) (stack : List Frame) (expect : Expect)
    (wants : Reader.wantsName ⟨.between, .fields done :: stack, expect⟩ = true) :
    Reader.run ⟨.between, .fields done :: stack, expect⟩ (quoted name ++ ':' :: text) =
      some ⟨.between, .fields ((unitsOf name, source) :: done) :: stack, .separator⟩ := by
  have split : quoted name ++ ':' :: text = (quoted name ++ [':']) ++ text := by simp
  rw [split, Reader.run_append_of_eq (Reader.run_name name wants)]
  exact reads _ _ rfl

/-! ## What the units mean -/

/-- A unit that is no surrogate is a character. -/
theorem charsOf?_escaped {n : Nat} (low : n < 0xD800) (rest : List CodeUnit) :
    charsOf? (.escaped n :: rest) = (charsOf? rest).map (Char.ofNat n :: ·) := by
  have plain : isHighSurrogate n = false ∧ isLowSurrogate n = false := by
    simp only [isHighSurrogate, isLowSurrogate, Bool.and_eq_false_iff, decide_eq_false_iff_not]
    omega
  cases rest with
  | nil => simp [charsOf?, plain]
  | cons unit rest => cases unit <;> simp [charsOf?, plain]

theorem charsOf?_units (cs : List Char) : charsOf? (cs.map unitOf) = some cs := by
  induction cs with
  | nil => rfl
  | cons c cs ih =>
      rw [List.map_cons, unitOf]
      split
      · rename_i coded
        have control : c.toNat < 0x20 := by
          simp only [isCoded, Bool.and_eq_true, decide_eq_true_eq] at coded
          exact coded.1
        rw [charsOf?_escaped (by omega), ih, Char.ofNat_toNat]
        rfl
      · rw [charsOf?, ih]
        rfl

/-- **A string is what its units mean.** -/
@[simp] theorem stringOf?_unitsOf (s : String) : stringOf? (unitsOf s) = some s := by
  rw [stringOf?, unitsOf, charsOf?_units, Option.map_some, String.ofList_toList]

@[simp] theorem text?_unitsOf (s : String) : Source.text? (.string (unitsOf s)) = some s :=
  stringOf?_unitsOf s

end Json

end Retrieval
