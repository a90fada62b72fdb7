/-
# Retrieval.Proofs.Collection.Log -- replaying a log, whole or cut

A record is *sound* for a dimension when its embedding is valid for it and its
components are legible: an index takes it, and it is read back from its line.  The
log of sound records is replayed to the index overlaid with them, in order
(`Log.replay_text`).

A log that is cut anywhere falls in one of three ways (`Log.Cut`).  Between two
records nothing is wrong with it.  Inside of a record its last line is torn: the
replay leaves that line out and says what to cut the log to (`Log.replay_torn`).
Behind the last brace of a record, with only the line feed missing, its last line is
a record like any other and nothing is cut off (`Log.replay_bare`); but then the next
line that is appended runs on in the same line, and the two together are no record
(`Log.replay_glued`).
-/
import Retrieval.Proofs.Collection.Record
import Retrieval.Proofs.Collection.Replay

namespace Retrieval

set_option autoImplicit false

/-! ## Sound records -/

/-- An index of the dimension takes the record, and it is read back from its line. -/
structure Record.Sound (dimension : UInt64) (r : Record) : Prop where
  valid : r.vector.Valid dimension
  legible : ∀ x ∈ r.vector, x.Legible

namespace Record

variable {dimension : UInt64} {r : Record}

theorem Sound.readable (sound : r.Sound dimension) : r.Readable :=
  fun x member => ⟨sound.valid.finite x member, sound.legible x member⟩

theorem unbroken (readable : r.Readable) : '\n' ∉ r.text :=
  fun member => Text.ne_newline_of_isVisible (isVisible_of_mem_text readable member) rfl

theorem trim_text (readable : r.Readable) : Text.trim r.text = r.text :=
  Text.trim_of_visible fun _ => isVisible_of_mem_text readable

end Record

namespace Log

variable {dimension : UInt64} {index : Index} {records : List Record}

/-! ## The text of a log -/

/-- The text of records, one line each. -/
def text (records : List Record) : List Char := records.flatMap Record.line

@[simp] theorem text_nil : text [] = [] := rfl

@[simp] theorem text_cons (r : Record) (records : List Record) :
    text (r :: records) = r.line ++ text records := rfl

@[simp] theorem text_append (s t : List Record) : text (s ++ t) = text s ++ text t :=
  List.flatMap_append

theorem bytes_eq (records : List Record) : bytes records = Bytes.ofText (text records) := by
  induction records with
  | nil => rfl
  | cons r records ih =>
      rw [text_cons, Bytes.ofText_append, ← ih]
      rfl

theorem bytes_append (s t : List Record) : bytes (s ++ t) = bytes s ++ bytes t :=
  List.flatMap_append

/-- Every character of a log takes one byte. -/
theorem isAscii_of_mem_text (readable : ∀ r ∈ records, r.Readable) :
    ∀ c ∈ text records, Bytes.isAscii c = true := by
  intro c member
  obtain ⟨r, stored, inside⟩ := List.mem_flatMap.1 member
  rcases List.mem_append.1 inside with visible | feed
  · exact Bytes.isAscii_of_isVisible (Record.isVisible_of_mem_text (readable r stored) visible)
  · rw [List.mem_singleton.1 feed]
    decide

theorem trim_line {r : Record} (readable : r.Readable) : Text.trim r.line = r.text :=
  Text.trim_line fun _ => Record.isVisible_of_mem_text readable

theorem text_eq_ended (records : List Record) :
    text records = Text.ended (records.map Record.text) := by
  rw [text, Text.ended, List.flatMap_map]
  rfl

/-- The lines of a log are the texts of its records, each once and in order. -/
theorem framed_text (readable : ∀ r ∈ records, r.Readable) {rest : List Char}
    (unbroken : '\n' ∉ rest) :
    Text.Framed (text records ++ rest) (records.map Record.text) rest := by
  refine ⟨by rw [text_eq_ended], ?_, unbroken⟩
  intro line member
  obtain ⟨r, stored, rfl⟩ := List.mem_map.1 member
  exact Record.unbroken (readable r stored)

theorem lines_text (readable : ∀ r ∈ records, r.Readable) :
    Text.lines (text records) = records.map Record.line := by
  have whole := (framed_text readable List.not_mem_nil).lines_eq
  rw [List.append_nil, if_pos rfl, List.append_nil, List.map_map] at whole
  exact whole

theorem recordsOn_text (readable : ∀ r ∈ records, r.Readable) :
    recordsOn (records.map Record.text) = records := by
  induction records with
  | nil => rfl
  | cons r records ih =>
      obtain ⟨first, later⟩ := List.forall_mem_cons.1 readable
      rw [List.map_cons, recordsOn, List.filterMap_cons, Record.trim_text first,
        Record.read?_text first]
      exact congrArg (r :: ·) (ih later)

/-! ## Replaying logs -/

theorem passes_text {r : Record} (sound : r.Sound dimension) : Passes dimension r.text := by
  refine .inr ⟨r, ?_, sound.valid⟩
  rw [Record.trim_text sound.readable, Record.read?_text sound.readable]

theorem passes_texts (sound : ∀ r ∈ records, r.Sound dimension) :
    ∀ line ∈ records.map Record.text, Passes dimension line := by
  intro line member
  obtain ⟨r, stored, rfl⟩ := List.mem_map.1 member
  exact passes_text (sound r stored)

theorem readable_of_sound (sound : ∀ r ∈ records, r.Sound dimension) :
    ∀ r ∈ records, r.Readable :=
  fun r member => (sound r member).readable

/-- **The log of sound records is replayed whole.** -/
theorem replay_text (sound : ∀ r ∈ records, r.Sound index.dimension) :
    replay index (text records) = .ok (index.overlay (records.map Record.entry), none) := by
  have readable := readable_of_sound sound
  have framed := framed_text readable List.not_mem_nil
  have replayed := replay_of_passes index framed (passes_texts sound) (.inl nofun)
  rw [List.append_nil, recordsOn_append, recordsOn_text readable] at replayed
  exact replayed.trans (by rw [show recordsOn [[]] = [] from rfl, List.append_nil])

/-- A torn last line is left out, and the log is to be cut back to the lines before it. -/
theorem replay_torn (sound : ∀ r ∈ records, r.Sound index.dimension) {r : Record}
    (readable : r.Readable) {fragment : List Char} (nonempty : fragment ≠ [])
    (isPrefix : fragment <+: r.text) (strict : fragment ≠ r.text) :
    replay index (text records ++ fragment) =
      .ok (index.overlay (records.map Record.entry), some (text records)) := by
  have visible : ∀ c ∈ fragment, Text.isVisible c = true :=
    fun c member => Record.isVisible_of_mem_text readable (isPrefix.subset member)
  have unbroken : '\n' ∉ fragment :=
    fun member => Text.ne_newline_of_isVisible (visible _ member) rfl
  have trimmed : Text.trim fragment = fragment := Text.trim_of_visible visible
  have garbled : Garbled fragment := by
    refine ⟨fun blank => nonempty ?_, ?_⟩
    · rw [← trimmed, Text.trim_eq_nil_iff.2 blank]
    · rw [trimmed, Record.read?_of_strictPrefix readable isPrefix strict]
  have framed := framed_text (readable_of_sound sound) unbroken
  have nothing : recordsOn [fragment] = [] := by simp [recordsOn, garbled.2]
  rw [replay_of_torn index framed (passes_texts sound) garbled, recordsOn_append, nothing,
    List.append_nil, recordsOn_text (readable_of_sound sound), text_eq_ended]

/-- A last line that lacks only its line feed is replayed, and nothing is cut off. -/
theorem replay_bare (sound : ∀ r ∈ records, r.Sound index.dimension) {r : Record}
    (last : r.Sound index.dimension) :
    replay index (text records ++ r.text) =
      .ok (index.overlay ((records ++ [r]).map Record.entry), none) := by
  have framed := framed_text (readable_of_sound sound) (Record.unbroken last.readable)
  have all : ∀ s ∈ records ++ [r], s.Readable := by
    intro s member
    rcases List.mem_append.1 member with stored | new
    · exact (sound s stored).readable
    · exact List.mem_singleton.1 new ▸ last.readable
  have lines : records.map Record.text ++ [r.text] = (records ++ [r]).map Record.text := by simp
  rw [replay_of_passes index framed (passes_texts sound) (passes_text last), lines,
    recordsOn_text all]

/-- **What is appended behind a line without line feed makes it unreadable.** -/
theorem replay_glued (sound : ∀ r ∈ records, r.Sound index.dimension) {r next : Record}
    (last : r.Readable) (first : next.Readable) (rest : List Char) :
    replay index (text records ++ (r.text ++ (next.line ++ rest))) =
      .error (.unreadable (records.length + 1)) := by
  have visible : ∀ c ∈ r.text ++ next.text, Text.isVisible c = true := by
    intro c member
    rcases List.mem_append.1 member with here | there
    · exact Record.isVisible_of_mem_text last here
    · exact Record.isVisible_of_mem_text first there
  have trimmed : Text.trim (r.text ++ next.text) = r.text ++ next.text :=
    Text.trim_of_visible visible
  have garbled : Garbled (r.text ++ next.text) := by
    obtain ⟨more, opened⟩ : ∃ more, next.text = '{' :: more := ⟨_, rfl⟩
    refine ⟨fun blank => r.text_ne_nil ?_, ?_⟩
    · rw [Text.trim_eq_nil_iff.2 blank] at trimmed
      exact (List.append_eq_nil_iff.1 trimmed.symm).1
    · rw [trimmed, opened, Record.read?_text_append last]
  obtain ⟨lines, remainder, framed⟩ := Text.exists_framed rest
  have glued : Text.Framed (text records ++ (r.text ++ (next.line ++ rest)))
      (records.map Record.text ++ (r.text ++ next.text) :: lines) remainder := by
    refine ⟨?_, ?_, framed.open_ended⟩
    · rw [framed.text_eq, text_eq_ended]
      simp [Text.ended, Record.line]
    · intro line member
      rcases List.mem_append.1 member with stored | later
      · exact (framed_text (readable_of_sound sound) List.not_mem_nil).unbroken line stored
      · rcases List.mem_cons.1 later with rfl | behind
        · exact fun feed => Text.ne_newline_of_isVisible (visible _ feed) rfl
        · exact framed.unbroken line behind
  rw [replay_of_garbled index glued (passes_texts sound) garbled, List.length_map]

/-! ## Cuts -/

/-- Where a cut of the log of records falls, and what it leaves. -/
inductive Cut (records : List Record) (n : Nat) : Prop where
  /-- Between two records. -/
  | between (whole rest : List Record) (split : records = whole ++ rest)
      (left : (text records).take n = text whole)
  /-- Inside of a record. -/
  | inside (whole : List Record) (r : Record) (rest : List Record) (fragment : List Char)
      (split : records = whole ++ r :: rest) (nonempty : fragment ≠ [])
      (isPrefix : fragment <+: r.text) (strict : fragment ≠ r.text)
      (left : (text records).take n = text whole ++ fragment)
  /-- Between a record and its line feed. -/
  | bare (whole : List Record) (r : Record) (rest : List Record)
      (split : records = whole ++ r :: rest) (place : n + 1 = (text (whole ++ [r])).length)
      (left : (text records).take n = text whole ++ r.text)

/-- **Every cut falls in one of the three ways.** -/
theorem cut (records : List Record) (n : Nat) : Cut records n := by
  induction records generalizing n with
  | nil => exact .between [] [] rfl List.take_nil
  | cons r records ih =>
      by_cases past : r.line.length ≤ n
      · -- the cut is further on
        have left : (text (r :: records)).take n =
            r.line ++ (text records).take (n - r.line.length) := by
          rw [text_cons, List.take_append, List.take_of_length_le past]
        cases ih (n - r.line.length) with
        | between whole rest split cut =>
            exact .between (r :: whole) rest (by rw [split]; rfl) (by rw [left, cut]; rfl)
        | inside whole s rest fragment split nonempty isPrefix strict cut =>
            exact .inside (r :: whole) s rest fragment (by rw [split]; rfl) nonempty isPrefix strict
              (by rw [left, cut, text_cons, List.append_assoc])
        | bare whole s rest split place cut =>
            refine .bare (r :: whole) s rest (by rw [split]; rfl) ?_
              (by rw [left, cut, text_cons, List.append_assoc])
            rw [List.cons_append, text_cons, List.length_append, ← place]
            omega
      · have short : n ≤ r.text.length := by
          simp only [Record.line, List.length_append, List.length_singleton] at past
          omega
        have left : (text (r :: records)).take n = r.text.take n := by
          rw [text_cons, Record.line, List.append_assoc, List.take_append_of_le_length short]
        by_cases start : n = 0
        · exact .between [] (r :: records) rfl (by rw [start]; rfl)
        by_cases complete : n = r.text.length
        · exact .bare [] r records rfl (by simp [Record.line, complete])
            (by rw [left, complete, List.take_length]; rfl)
        · refine .inside [] r records (r.text.take n) rfl ?_ (List.take_prefix n r.text) ?_ left
          · intro empty
            have := congrArg List.length empty
            simp only [List.length_take, List.length_nil] at this
            omega
          · intro whole
            have := congrArg List.length whole
            simp only [List.length_take] at this
            omega

end Log

end Retrieval
