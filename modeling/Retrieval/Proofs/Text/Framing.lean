/-
# Retrieval.Proofs.Text.Framing -- the lines of any text, and what is behind them

Every text consists of lines that a line feed ends, and of a rest without line feed,
which may be nothing (`Text.exists_framed`).  Its division into lines gives just these
(`Text.Framed.lines_eq`).

A line feed does not show when a line is trimmed (`Text.trim_feed`), and nothing is left
of a line exactly when it is blank (`Text.trim_eq_nil_iff`).
-/
import Retrieval.Proofs.Text.Visible
import Mathlib.Data.List.TakeWhile

namespace Retrieval

set_option autoImplicit false

namespace Text

variable {text rest : List Char} {lines : List (List Char)}

/-! ## Trimming -/

/-- There is nothing but white space in the line. -/
def Blank (line : List Char) : Prop := ∀ c ∈ line, isBlank c = true

instance (line : List Char) : Decidable (Blank line) :=
  decidable_of_iff (line.all isBlank = true) List.all_eq_true

theorem trimEnd_eq_nil_iff : trimEnd text = [] ↔ Blank text := by
  simp [trimEnd, Blank]

/-- Nothing is left of a blank line, and something of any other. -/
theorem trim_eq_nil_iff : trim text = [] ↔ Blank text := by
  rw [trim, trimEnd_eq_nil_iff]
  induction text with
  | nil => rfl
  | cons c text ih =>
      cases blank : isBlank c with
      | true => simpa [Blank, blank] using ih
      | false => simp [Blank, blank]

theorem trimEnd_feed (text : List Char) : trimEnd (text ++ ['\n']) = trimEnd text := by
  have feed : isBlank '\n' = true := by decide
  simp [trimEnd, feed]

/-- The line feed at the end of a line is trimmed off like any blank. -/
theorem trim_feed (line : List Char) : trim (line ++ ['\n']) = trim line := by
  have feed : isBlank '\n' = true := by decide
  rw [trim, trim, List.dropWhile_append]
  cases begun : line.dropWhile isBlank with
  | nil => simp [feed]
  | cons c more => exact trimEnd_feed (c :: more)

/-! ## Lines and a rest -/

/-- Lines with the line feeds that end them. -/
def ended (lines : List (List Char)) : List Char := lines.flatMap fun line => line ++ ['\n']

@[simp] theorem ended_cons (line : List Char) (lines : List (List Char)) :
    ended (line :: lines) = line ++ '\n' :: ended lines := by
  simp [ended]

/-- The text consists of lines that a line feed ends, and of a rest without one. -/
structure Framed (text : List Char) (lines : List (List Char)) (rest : List Char) : Prop where
  text_eq : text = ended lines ++ rest
  unbroken : ∀ line ∈ lines, '\n' ∉ line
  open_ended : '\n' ∉ rest

/-- **Every text consists of lines and a rest.** -/
theorem exists_framed (text : List Char) : ∃ lines rest, Framed text lines rest := by
  induction text with
  | nil => exact ⟨[], [], rfl, nofun, nofun⟩
  | cons c text ih =>
      obtain ⟨lines, rest, rfl, unbroken, open_ended⟩ := ih
      by_cases feed : c = '\n'
      · subst feed
        exact ⟨[] :: lines, rest, by simp, by simpa using unbroken, open_ended⟩
      · -- the character goes to the first line, or to the rest if there is none
        cases lines with
        | nil => exact ⟨[], c :: rest, rfl, nofun, by simpa [Ne.symm feed] using open_ended⟩
        | cons line lines =>
            exact ⟨(c :: line) :: lines, rest, by simp, by simpa [Ne.symm feed] using unbroken,
              open_ended⟩

theorem lines_ended_append (unbroken : ∀ line ∈ lines, '\n' ∉ line) (rest : List Char) :
    Text.lines (ended lines ++ rest) = lines.map (· ++ ['\n']) ++ Text.lines rest := by
  induction lines with
  | nil => rfl
  | cons line lines ih =>
      obtain ⟨first, later⟩ := List.forall_mem_cons.1 unbroken
      have here : ∀ c ∈ line, c ≠ '\n' := fun c member feed => first (feed ▸ member)
      rw [ended_cons, List.append_assoc, List.cons_append, lines_append_line here, ih later]
      rfl

/-- Dividing the text gives the lines, and the rest as one more if there is any. -/
theorem Framed.lines_eq (framed : Framed text lines rest) :
    Text.lines text =
      lines.map (· ++ ['\n']) ++ if rest = [] then [] else [rest] := by
  rw [framed.text_eq, lines_ended_append framed.unbroken]
  congr 1
  split
  · rename_i nothing
    rw [nothing]
    rfl
  · rename_i something
    exact lines_of_unbroken (fun c member feed => framed.open_ended (feed ▸ member)) something

end Text

end Retrieval
