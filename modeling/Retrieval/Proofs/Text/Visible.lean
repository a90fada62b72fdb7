/-
# Retrieval.Proofs.Text.Visible -- lines of visible characters

The visible characters of ASCII are neither blank nor line feeds and take one byte
each.  A line of them is cut off whole when a text is divided into lines
(`Text.lines_append_line`) and survives trimming (`Text.trim_line`); and where every
character takes one byte, a prefix of the bytes is the bytes of a prefix
(`Bytes.take_ofText`), so a file cut anywhere is still a text.
-/
import Retrieval.Text.Line
import Retrieval.Text.Utf8

namespace Retrieval

set_option autoImplicit false

namespace Text

/-- The characters of ASCII that can be seen. -/
def isVisible (c : Char) : Bool := 0x20 < c.toNat && c.toNat < 0x7F

theorem isBlank_of_isVisible {c : Char} (visible : isVisible c = true) : isBlank c = false := by
  simp only [isVisible, Bool.and_eq_true, decide_eq_true_eq] at visible
  simp [isBlank, blankRanges]
  omega

theorem ne_newline_of_isVisible {c : Char} (visible : isVisible c = true) : c ≠ '\n' := by
  rintro rfl
  cases visible

/-! ## Trimming -/

variable {text rest : List Char}

theorem dropWhile_isBlank (visible : ∀ c ∈ text, isVisible c = true) (rest : List Char)
    (nonempty : text ≠ []) : (text ++ rest).dropWhile isBlank = text ++ rest := by
  cases text with
  | nil => exact absurd rfl nonempty
  | cons c text => simp [isBlank_of_isVisible (visible c (by simp))]

theorem trimEnd_of_visible (visible : ∀ c ∈ text, isVisible c = true) (blanks : List Char)
    (blank : ∀ c ∈ blanks, isBlank c = true) : trimEnd (text ++ blanks) = text := by
  have dropped : (blanks.reverse ++ text.reverse).dropWhile isBlank = text.reverse := by
    rw [List.dropWhile_append_of_pos (fun c member => blank c (by simpa using member))]
    cases empty : text.reverse with
    | nil => rfl
    | cons c more =>
        have member : c ∈ text := List.mem_reverse.1 (by rw [empty]; simp)
        simp [isBlank_of_isVisible (visible c member)]
  simp [trimEnd, dropped]

/-- Nothing is trimmed off visible characters. -/
theorem trim_of_visible (visible : ∀ c ∈ text, isVisible c = true) : trim text = text := by
  cases text with
  | nil => rfl
  | cons c more =>
      have start := dropWhile_isBlank visible [] (by simp)
      rw [List.append_nil] at start
      rw [trim, start]
      simpa using trimEnd_of_visible visible [] (by simp)

/-- The line feed is trimmed off a line of visible characters. -/
theorem trim_line (visible : ∀ c ∈ text, isVisible c = true) : trim (text ++ ['\n']) = text := by
  cases text with
  | nil => decide
  | cons c more =>
      rw [trim, dropWhile_isBlank visible ['\n'] (by simp)]
      exact trimEnd_of_visible visible ['\n'] (List.forall_mem_singleton.2 rfl)

/-! ## Lines -/

/-- A line is cut off whole. -/
theorem lines_append_line (unbroken : ∀ c ∈ text, c ≠ '\n') (rest : List Char) :
    lines (text ++ '\n' :: rest) = (text ++ ['\n']) :: lines rest := by
  induction text with
  | nil => simp [lines]
  | cons c text ih =>
      have here : c ≠ '\n' := unbroken c (by simp)
      have later := ih fun d member => unbroken d (List.mem_cons_of_mem _ member)
      simp [lines, here, later]

/-- A text without line feeds is one line. -/
theorem lines_of_unbroken (unbroken : ∀ c ∈ text, c ≠ '\n') (nonempty : text ≠ []) :
    lines text = [text] := by
  induction text with
  | nil => exact absurd rfl nonempty
  | cons c text ih =>
      have here : c ≠ '\n' := unbroken c (by simp)
      cases text with
      | nil => simp [lines, here]
      | cons d more =>
          have later := ih (fun e member => unbroken e (List.mem_cons_of_mem _ member)) (by simp)
          rw [lines, if_neg here, later]

end Text

namespace Bytes

/-- A character that takes one byte. -/
def isAscii (c : Char) : Bool := c.toNat < 0x80

theorem isAscii_of_isVisible {c : Char} (visible : Text.isVisible c = true) :
    isAscii c = true := by
  simp only [Text.isVisible, Bool.and_eq_true, decide_eq_true_eq] at visible
  simp only [isAscii, decide_eq_true_eq]
  omega

theorem encode_of_isAscii {c : Char} (ascii : isAscii c = true) :
    (String.utf8EncodeChar c).length = 1 := by
  simp only [isAscii, decide_eq_true_eq] at ascii
  rw [String.length_utf8EncodeChar, Char.utf8Size]
  have small : c.val ≤ 0x7F := by
    rw [UInt32.le_iff_toNat_le]
    exact Nat.le_of_lt_succ ascii
  exact if_pos small

/-- **A prefix of the bytes is the bytes of a prefix,** in a text of one byte a character. -/
theorem take_ofText {text : List Char} (ascii : ∀ c ∈ text, isAscii c = true) (n : Nat) :
    (ofText text).take n = ofText (text.take n) := by
  induction text generalizing n with
  | nil => simp
  | cons c text ih =>
      have one := encode_of_isAscii (ascii c (by simp))
      have rest := fun n => ih (fun d member => ascii d (List.mem_cons_of_mem _ member)) n
      obtain ⟨byte, encoded⟩ := List.length_eq_one_iff.1 one
      cases n with
      | zero => simp
      | succ n =>
          simp only [ofText, List.flatMap_cons, encoded] at rest ⊢
          simp [rest n, encoded]

theorem length_ofText {text : List Char} (ascii : ∀ c ∈ text, isAscii c = true) :
    (ofText text).length = text.length := by
  induction text with
  | nil => rfl
  | cons c text ih =>
      have one := encode_of_isAscii (ascii c (by simp))
      have rest := ih fun d member => ascii d (List.mem_cons_of_mem _ member)
      simp only [ofText, List.flatMap_cons, List.length_append, one] at rest ⊢
      rw [rest, List.length_cons, Nat.add_comm]

end Bytes

end Retrieval
