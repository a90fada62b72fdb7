/-
# Retrieval.Proofs.Collection.Record -- the text of a record and nothing less

A record is *readable* when its components are finite and legible.  Its text is then
read back as the record (`Record.read?_text`).  No strict prefix of the text is a
record (`read?_of_strictPrefix`): as long as the last brace is missing, a container
is open.  And no text goes on after the last brace with a second record
(`read?_text_append`).

The text is one line of visible characters (`isVisible_of_mem_text`).
-/
import Retrieval.Collection.Record
import Retrieval.Proofs.Json.Numeral
import Retrieval.Proofs.Text.Visible

namespace Retrieval

set_option autoImplicit false

open Json (Source Literal Numeral Reader CodeUnit)

namespace Record

/-- The components are finite, and their printed decimals are read back unchanged. -/
def Readable (r : Record) : Prop := ∀ x ∈ r.vector, x.isFinite = true ∧ x.Legible

/-! ## Reading the text -/

/-- The units of the names of the fields. -/
def idUnits : List CodeUnit := [.plain 'i', .plain 'd']

def vectorUnits : List CodeUnit :=
  [.plain 'v', .plain 'e', .plain 'c', .plain 't', .plain 'o', .plain 'r']

/-- What is written before the number, and what between it and the components. -/
def beforeId : List Char := ['{', '"', 'i', 'd', '"', ':']

def beforeVector : List Char := [',', '"', 'v', 'e', 'c', 't', 'o', 'r', '"', ':', '[']

/-- The text up to the components. -/
def opening (r : Record) : List Char := beforeId ++ digitsOf r.id.toNat ++ beforeVector

/-- The text of the components. -/
def components (r : Record) : List Char := Json.commas (r.vector.map (Binary.text .single))

theorem text_eq (r : Record) : r.text = r.opening ++ r.components ++ [']', '}'] := by
  have id : Json.quoted "id" = ['"', 'i', 'd', '"'] := by decide
  have vector : Json.quoted "vector" = '"' :: "vector".toList ++ ['"'] := by decide
  simp [text, opening, beforeId, beforeVector, components, id, vector]

/-- After the opening, the array of components is open in the field that follows the number. -/
theorem run_opening (r : Record) :
    ∃ literal, (Source.number literal).word? = some r.id ∧
      Reader.start.run r.opening =
        some ⟨.between, [.items [], .field [(idUnits, .number literal)] vectorUnits],
          .valueOrClose⟩ := by
  obtain ⟨numeral, digits, scanned, literal, value⟩ := Numeral.scan_digitsOf r.id.toNat
  refine ⟨⟨false, digits, [], none⟩, Source.word?_number value, ?_⟩
  have first : Reader.start.run beforeId =
      some ⟨.between, [.field [] idUnits], .value⟩ := rfl
  have number := Reader.run_numeral scanned [.field [] idUnits] .value rfl
  rw [opening, List.append_assoc, Reader.run_append_of_eq first, Reader.run_append_of_eq number,
    beforeVector, Reader.run_cons, Reader.step_numeral_end literal rfl]
  rfl

/-- The components and the bracket behind them are read as an array. -/
theorem run_components {v : Embedding} (nonempty : v ≠ [])
    (readable : ∀ x ∈ v, x.isFinite = true ∧ x.Legible) (done : List Source)
    (stack : List Json.Frame) (expect : Json.Expect)
    (wants : Reader.wantsValue ⟨.between, .items done :: stack, expect⟩ = true) :
    ∃ sources, sources.mapM Source.single? = some v ∧
      Reader.run ⟨.between, .items done :: stack, expect⟩
          (Json.commas (v.map (Binary.text .single)) ++ [']']) =
        Reader.complete stack (.array (done.reverse ++ sources)) := by
  induction v generalizing done expect with
  | nil => exact absurd rfl nonempty
  | cons x v ih =>
      obtain ⟨finite, legible⟩ := readable x (by simp)
      obtain ⟨numeral, literal, scanned, ended, single⟩ := legible.numeral finite
      have taken := Reader.run_numeral scanned (.items done :: stack) expect wants
      cases v with
      | nil =>
          refine ⟨[.number literal], by simp [single], ?_⟩
          simp only [List.map_cons, List.map_nil, Json.commas]
          rw [Reader.run_append_of_eq taken, Reader.run_cons,
            Reader.step_numeral_end ended rfl]
          simp [Reader.complete, Reader.stepBetween, Reader.isSpace, Reader.mayClose]
      | cons y v =>
          obtain ⟨sources, read, ran⟩ := ih (by simp)
            (fun z member => readable z (List.mem_cons_of_mem _ member))
            (.number literal :: done) .value rfl
          refine ⟨.number literal :: sources, by simp [single, read], ?_⟩
          simp only [List.map_cons, Json.commas, List.append_assoc, List.cons_append] at ran ⊢
          rw [Reader.run_append_of_eq taken, Reader.run_cons,
            Reader.step_numeral_end ended rfl]
          simpa [Reader.complete, Reader.stepBetween, Reader.isSpace] using ran

/-- Before the last brace, the object is open with both fields read. -/
theorem run_unclosed {r : Record} (readable : r.Readable) :
    ∃ literal sources, (Source.number literal).word? = some r.id ∧
      sources.mapM Source.single? = some r.vector ∧
      Reader.start.run (r.opening ++ r.components ++ [']']) =
        some ⟨.between, [.fields [(vectorUnits, .array sources), (idUnits, .number literal)]],
          .separator⟩ := by
  obtain ⟨literal, word, opened⟩ := run_opening r
  rw [List.append_assoc, Reader.run_append_of_eq opened, components]
  by_cases empty : r.vector = []
  · exact ⟨literal, [], word, by simp [empty], by rw [empty]; rfl⟩
  · obtain ⟨sources, read, ran⟩ := run_components empty readable [] _ .valueOrClose rfl
    exact ⟨literal, sources, word, read, ran⟩

/-- After the text, an object of the two fields has been read. -/
theorem run_text {r : Record} (readable : r.Readable) :
    ∃ literal sources, (Source.number literal).word? = some r.id ∧
      sources.mapM Source.single? = some r.vector ∧
      Reader.start.run r.text =
        some ⟨.between, [],
          .nothing (.object [(idUnits, .number literal), (vectorUnits, .array sources)])⟩ := by
  obtain ⟨literal, sources, word, read, ran⟩ := run_unclosed readable
  refine ⟨literal, sources, word, read, ?_⟩
  rw [text_eq, show [']', '}'] = [']'] ++ ['}'] from rfl, ← List.append_assoc,
    Reader.run_append_of_eq ran]
  rfl

theorem columns_object (id vector : Source) :
    Source.columns ["id", "vector"] (.object [(idUnits, id), (vectorUnits, vector)]) =
      some [some id, some vector] := by
  rfl

/-- **A readable record is read back from its text.** -/
theorem read?_text {r : Record} (readable : r.Readable) : read? r.text = some r := by
  obtain ⟨literal, sources, word, read, ran⟩ := run_text readable
  have source : Source.read r.text =
      some (.object [(idUnits, .number literal), (vectorUnits, .array sources)]) :=
    (congrArg (Option.bind · Reader.finish) ran).trans rfl
  simp [read?, source, columns_object, word, Source.items?, read]

/-- What follows the text is no second record. -/
theorem read?_text_append {r : Record} (readable : r.Readable) (text : List Char) :
    read? (r.text ++ '{' :: text) = none := by
  obtain ⟨literal, sources, -, -, ran⟩ := run_text readable
  have source : Source.read (r.text ++ '{' :: text) = none := by
    have stuck := Reader.run_append_of_eq ran ('{' :: text)
    rw [Reader.run_cons] at stuck
    exact congrArg (Option.bind · Reader.finish) (stuck.trans rfl)
  simp [read?, source]

/-! ## The characters -/

theorem mem_commas {texts : List (List Char)} {c : Char} (member : c ∈ Json.commas texts) :
    c = ',' ∨ ∃ text ∈ texts, c ∈ text := by
  induction texts with
  | nil => simp [Json.commas] at member
  | cons text texts ih =>
      cases texts with
      | nil => exact .inr ⟨text, by simp, member⟩
      | cons next more =>
          rw [Json.commas, List.mem_append, List.mem_cons] at member
          rcases member with here | rfl | later
          · exact .inr ⟨text, by simp, here⟩
          · exact .inl rfl
          · obtain comma | ⟨other, inside, there⟩ := ih later
            · exact .inl comma
            · exact .inr ⟨other, List.mem_cons_of_mem _ inside, there⟩
          · simp

theorem isVisible_of_isNumeric {c : Char} (numeric : Json.isNumeric c = true) :
    Text.isVisible c = true := by
  simp only [Json.isNumeric, Bool.or_eq_true, decide_eq_true_eq] at numeric
  rcases numeric with (((digit | rfl) | rfl) | rfl) | rfl
  · simp only [Char.isDigit, Bool.and_eq_true, decide_eq_true_eq, ge_iff_le,
      UInt32.le_iff_toNat_le] at digit
    have low : (48 : Nat) ≤ c.toNat := digit.1
    have high : c.toNat ≤ 57 := digit.2
    simp only [Text.isVisible, Bool.and_eq_true, decide_eq_true_eq]
    omega
  all_goals decide

/-- The characters of the text that are no part of a number, up to the end of the components. -/
def fixedCharacters : List Char := beforeId ++ beforeVector

theorem mem_unclosed {r : Record} (readable : r.Readable) {c : Char}
    (member : c ∈ r.opening ++ r.components) :
    c ∈ fixedCharacters ∨ Json.isNumeric c = true := by
  rw [List.mem_append, opening, List.mem_append, List.mem_append] at member
  rcases member with ((first | digit) | second) | component
  · exact .inl (List.mem_append_left _ first)
  · exact .inr (isNumeric_digitsOf digit)
  · exact .inl (List.mem_append_right _ second)
  · obtain rfl | ⟨text, member, inside⟩ := mem_commas component
    · exact .inl (by decide)
    · obtain ⟨x, stored, rfl⟩ := List.mem_map.1 member
      exact .inr (Binary.isNumeric_text (readable x stored).1 inside)

/-- No bracket is closed before the components end. -/
theorem unclosed {r : Record} (readable : r.Readable) {c : Char}
    (member : c ∈ r.opening ++ r.components) : c ≠ ']' ∧ c ≠ '}' := by
  rcases mem_unclosed readable member with fixed | numeric
  · have unclosing : fixedCharacters.all (fun c => c ≠ ']' ∧ c ≠ '}') = true := by decide
    exact of_decide_eq_true (List.all_eq_true.1 unclosing c fixed)
  · exact ⟨Json.ne_of_isNumeric numeric rfl, Json.ne_of_isNumeric numeric rfl⟩

/-- The text is visible throughout. -/
theorem isVisible_of_mem_text {r : Record} (readable : r.Readable) {c : Char}
    (member : c ∈ r.text) : Text.isVisible c = true := by
  rw [text_eq, List.mem_append] at member
  rcases member with early | closing
  · rcases mem_unclosed readable early with fixed | numeric
    · have visible : fixedCharacters.all Text.isVisible = true := by decide
      exact List.all_eq_true.1 visible c fixed
    · exact isVisible_of_isNumeric numeric
  · have visible : [']', '}'].all Text.isVisible = true := by decide
    exact List.all_eq_true.1 visible c closing

theorem text_ne_nil (r : Record) : r.text ≠ [] := by simp [text]

/-! ## Strict prefixes -/

/-- A strict prefix of the text lacks at least the last brace. -/
theorem isPrefix_unclosed {r : Record} {text : List Char} (isPrefix : text <+: r.text)
    (strict : text ≠ r.text) : text <+: r.opening ++ r.components ++ [']'] := by
  have whole : r.text = (r.opening ++ r.components ++ [']']) ++ ['}'] := by
    simp [text_eq]
  rw [whole] at isPrefix strict
  exact (List.prefix_concat_iff.1 isPrefix).resolve_left strict

theorem brace_not_mem {r : Record} (readable : r.Readable) {text : List Char}
    (isPrefix : text <+: r.text) (strict : text ≠ r.text) : '}' ∉ text := by
  intro member
  rcases List.mem_append.1 ((isPrefix_unclosed isPrefix strict).subset member) with early | last
  · exact (unclosed readable early).2 rfl
  · exact absurd last (by decide)

theorem getLast?_text (r : Record) : r.text.getLast? = some '}' := by
  simp [text_eq]

/-- **No strict prefix of the text is a record.** -/
theorem read?_of_strictPrefix {r : Record} (readable : r.Readable) {text : List Char}
    (isPrefix : text <+: r.text) (strict : text ≠ r.text) : read? text = none := by
  suffices unread : Source.read text = none by simp [read?, unread]
  cases ran : Reader.start.run text with
  | none => exact congrArg (Option.bind · Reader.finish) ran
  | some reached =>
      refine (congrArg (Option.bind · Reader.finish) ran).trans ?_
      rcases List.prefix_concat_iff.1 (isPrefix_unclosed isPrefix strict) with rfl | inside
      · -- only the last brace is missing
        obtain ⟨literal, sources, -, -, unfinished⟩ := run_unclosed readable
        rw [unfinished] at ran
        cases ran
        rfl
      · -- the cut is before the components end, where nothing has been closed yet
        cases text with
        | nil =>
            cases ran
            rfl
        | cons c rest =>
            obtain ⟨suffix, whole⟩ := inside
            have first : c = '{' := by simpa [opening, beforeId] using congrArg List.head? whole
            subst first
            have begun : Reader.Open ⟨.between, [.fields []], .nameOrClose⟩ :=
              ⟨List.cons_ne_nil _ _, nofun⟩
            have still : reached.Open := by
              refine Reader.run_open begun (fun c member => unclosed readable ?_) ran
              rw [← whole]
              exact List.mem_append_left _ (List.mem_cons_of_mem _ member)
            exact still.finish

end Record

end Retrieval
