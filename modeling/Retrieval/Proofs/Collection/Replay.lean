/-
# Retrieval.Proofs.Collection.Replay -- replaying a log of any text

A text of any origin can be in the place of the log.  Each of its lines is blank, or a
record that the index takes, and then it *passes*; or it is a record that the index
refuses; or it is *garbled*.  So the text is of one of four kinds (`Log.Survey`): all of
it passes, only what is behind the last line feed is garbled, or there is a first line
that is garbled or refused.  The replay comes to an end of its own in each of them
(`Log.replay_of_passes`, `Log.replay_of_torn`, `Log.replay_of_garbled`,
`Log.replay_of_refused`, together `Log.replayed`).  What a torn log is to be cut to passes
(`Log.replay_of_cut`).
-/
import Retrieval.Collection.Basic
import Retrieval.Proofs.Index.Basic
import Retrieval.Proofs.Text.Framing

namespace Retrieval

set_option autoImplicit false

/-- What a record puts into an index. -/
def Record.entry (r : Record) : DocumentId × Embedding := (r.id, r.vector)

namespace Log

variable {dimension : UInt64} {index : Index} {fault : Embedding.Fault}
variable {text line rest : List Char} {lines before after : List (List Char)}

/-! ## What can be on a line -/

/-- There is nothing on the line, or a record that an index of the dimension takes. -/
def Passes (dimension : UInt64) (line : List Char) : Prop :=
  Text.Blank line ∨ ∃ r, Record.read? (Text.trim line) = some r ∧ r.vector.Valid dimension

/-- There is something on the line, but no record. -/
def Garbled (line : List Char) : Prop :=
  ¬ Text.Blank line ∧ Record.read? (Text.trim line) = none

/-- On the line is a record that an index of the dimension refuses. -/
def Refused (dimension : UInt64) (line : List Char) (fault : Embedding.Fault) : Prop :=
  ∃ r, Record.read? (Text.trim line) = some r ∧ r.vector.fault? dimension = some fault

/-- The records on the lines, in order. -/
def recordsOn (lines : List (List Char)) : List Record :=
  lines.filterMap fun line => Record.read? (Text.trim line)

theorem read?_of_blank (blank : Text.Blank line) : Record.read? (Text.trim line) = none := by
  rw [Text.trim_eq_nil_iff.2 blank]
  rfl

theorem passes_or (dimension : UInt64) (line : List Char) :
    Passes dimension line ∨ Garbled line ∨ ∃ fault, Refused dimension line fault := by
  by_cases blank : Text.Blank line
  · exact .inl (.inl blank)
  · cases read : Record.read? (Text.trim line) with
    | none => exact .inr (.inl ⟨blank, read⟩)
    | some r =>
        cases refused : r.vector.fault? dimension with
        | none => exact .inl (.inr ⟨r, read, Embedding.fault?_eq_none_iff.1 refused⟩)
        | some fault => exact .inr (.inr ⟨fault, r, read, refused⟩)

theorem Passes.not_garbled (passes : Passes dimension line) : ¬ Garbled line := by
  rintro ⟨visible, unread⟩
  rcases passes with blank | ⟨r, read, -⟩
  · exact visible blank
  · rw [unread] at read
    cases read

theorem Refused.not_blank (refused : Refused dimension line fault) : ¬ Text.Blank line := by
  intro blank
  obtain ⟨r, read, -⟩ := refused
  rw [read?_of_blank blank] at read
  cases read

/-! ### With the line feed -/

theorem blank_feed : Text.Blank (line ++ ['\n']) ↔ Text.Blank line := by
  rw [← Text.trim_eq_nil_iff, Text.trim_feed, Text.trim_eq_nil_iff]

theorem passes_feed : Passes dimension (line ++ ['\n']) ↔ Passes dimension line := by
  rw [Passes, blank_feed, Text.trim_feed, Passes]

theorem garbled_feed : Garbled (line ++ ['\n']) ↔ Garbled line := by
  rw [Garbled, blank_feed, Text.trim_feed, Garbled]

theorem refused_feed : Refused dimension (line ++ ['\n']) fault ↔ Refused dimension line fault := by
  rw [Refused, Text.trim_feed, Refused]

theorem recordsOn_feed (lines : List (List Char)) :
    recordsOn (lines.map (· ++ ['\n'])) = recordsOn lines := by
  induction lines with
  | nil => rfl
  | cons line lines ih =>
      simp only [recordsOn, List.map_cons, List.filterMap_cons, Text.trim_feed] at ih ⊢
      rw [ih]

theorem recordsOn_append (s t : List (List Char)) :
    recordsOn (s ++ t) = recordsOn s ++ recordsOn t :=
  List.filterMap_append

/-! ## Replaying lines -/

/-- What a replay makes of a line is what it makes of the text on it. -/
theorem replayLines_body (number : Nat) {body : List Char}
    (trimmed : Text.trim line = body) (nonempty : body ≠ []) (rest : List (List Char)) :
    replayLines number index (line :: rest) =
      match Record.read? body with
      | some r =>
          match index.insert r.id r.vector with
          | .error f => .error (.refused f)
          | .ok index => replayLines (number + 1) index rest
      | none =>
          if rest.isEmpty && line.getLast? != some '\n' then .ok (index, true)
          else .error (.unreadable number) := by
  have visible : body.isEmpty = false := List.isEmpty_eq_false_iff.2 nonempty
  rw [replayLines, trimmed, visible]
  rfl

/-- A line that passes overlays the index with the record on it, if there is one. -/
theorem replayLines_passes (index : Index) (passes : Passes index.dimension line) (number : Nat)
    (more : List (List Char)) :
    replayLines number index (line :: more) =
      replayLines (number + 1) (index.overlay ((recordsOn [line]).map Record.entry)) more := by
  by_cases blank : Text.Blank line
  · have nothing : recordsOn [line] = [] := by simp [recordsOn, read?_of_blank blank]
    rw [replayLines, Text.trim_eq_nil_iff.2 blank, nothing]
    rfl
  · obtain ⟨r, read, valid⟩ := passes.resolve_left blank
    have one : recordsOn [line] = [r] := by simp [recordsOn, read]
    rw [replayLines_body number rfl (mt Text.trim_eq_nil_iff.1 blank), read, one]
    dsimp only
    rw [Index.insert_of_valid r.id (Embedding.fault?_eq_none_iff.2 valid)]
    rfl

/-- **Lines that pass overlay the index with the records on them.** -/
theorem replayLines_append_passes (index : Index)
    (passes : ∀ line ∈ lines, Passes index.dimension line) (number : Nat)
    (more : List (List Char)) :
    replayLines number index (lines ++ more) =
      replayLines (number + lines.length)
        (index.overlay ((recordsOn lines).map Record.entry)) more := by
  induction lines generalizing index number with
  | nil => rfl
  | cons line lines ih =>
      obtain ⟨first, later⟩ := List.forall_mem_cons.1 passes
      have all : recordsOn (line :: lines) = recordsOn [line] ++ recordsOn lines :=
        recordsOn_append [line] lines
      rw [List.cons_append, replayLines_passes index first, ih (index.overlay _) later,
        ← Index.overlay_append, all, List.map_append, List.length_cons, Nat.add_assoc,
        Nat.add_comm 1]

theorem replayLines_refused (index : Index) (refused : Refused index.dimension line fault)
    (number : Nat) (more : List (List Char)) :
    replayLines number index (line :: more) = .error (.refused fault) := by
  have visible := mt Text.trim_eq_nil_iff.1 refused.not_blank
  obtain ⟨r, read, cause⟩ := refused
  rw [replayLines_body number rfl visible, read]
  dsimp only
  rw [Index.insert_of_fault r.id cause]

/-- A garbled line that ends in a line feed ends the replay. -/
theorem replayLines_garbled (garbled : Garbled line) (number : Nat) (more : List (List Char)) :
    replayLines number index ((line ++ ['\n']) :: more) = .error (.unreadable number) := by
  obtain ⟨visible, unread⟩ := garbled_feed.2 garbled
  rw [replayLines_body number rfl (mt Text.trim_eq_nil_iff.1 visible), unread]
  simp

/-- A garbled rest was torn. -/
theorem replayLines_torn (garbled : Garbled rest) (unbroken : '\n' ∉ rest) (number : Nat) :
    replayLines number index [rest] = .ok (index, true) := by
  have last : rest.getLast? ≠ some '\n' := fun feed => unbroken (List.mem_of_getLast? feed)
  rw [replayLines_body number rfl (mt Text.trim_eq_nil_iff.1 garbled.1), garbled.2]
  simp [last]

/-! ## Replaying texts -/

/-- Lines that pass at the start of a text overlay the index with the records on them. -/
theorem replayLines_of_framed (index : Index) (framed : Text.Framed text (lines ++ after) rest)
    (passes : ∀ line ∈ lines, Passes index.dimension line) :
    replayLines 1 index (Text.lines text) =
      replayLines (lines.length + 1) (index.overlay ((recordsOn lines).map Record.entry))
        (after.map (· ++ ['\n']) ++ if rest = [] then [] else [rest]) := by
  have passing : ∀ line ∈ lines.map (· ++ ['\n']), Passes index.dimension line := by
    intro fed member
    obtain ⟨line, stored, rfl⟩ := List.mem_map.1 member
    exact passes_feed.2 (passes line stored)
  rw [framed.lines_eq, List.map_append, List.append_assoc, replayLines_append_passes index passing,
    recordsOn_feed, List.length_map, Nat.add_comm]

/-- **A text that passes is replayed whole.** -/
theorem replay_of_passes (index : Index) (framed : Text.Framed text lines rest)
    (passes : ∀ line ∈ lines, Passes index.dimension line)
    (last : Passes index.dimension rest) :
    replay index text =
      .ok (index.overlay ((recordsOn (lines ++ [rest])).map Record.entry), none) := by
  rw [← List.append_nil lines] at framed
  rw [replay, replayLines_of_framed index framed passes, recordsOn_append, List.map_append,
    Index.overlay_append]
  by_cases nothing : rest = []
  · subst nothing
    rfl
  · rw [if_neg nothing, List.map_nil, List.nil_append,
      replayLines_passes (index.overlay _) last]
    rfl

/-- **A garbled rest is left out, and the text is to be cut back to the lines before it.** -/
theorem replay_of_torn (index : Index) (framed : Text.Framed text lines rest)
    (passes : ∀ line ∈ lines, Passes index.dimension line) (garbled : Garbled rest) :
    replay index text =
      .ok (index.overlay ((recordsOn (lines ++ [rest])).map Record.entry),
        some (Text.ended lines)) := by
  have something : rest ≠ [] := by
    rintro rfl
    exact garbled.1 nofun
  have unread : recordsOn [rest] = [] := by simp [recordsOn, garbled.2]
  have whole := framed.lines_eq
  rw [← List.append_nil lines] at framed
  have replayed := replayLines_of_framed index framed passes
  rw [if_neg something, List.map_nil, List.nil_append,
    replayLines_torn garbled framed.open_ended] at replayed
  rw [replay, replayed, whole, if_neg something, recordsOn_append, unread, List.append_nil]
  simp only [if_true, List.dropLast_concat]
  rw [Text.ended, List.flatMap_def]

/-- **The first line that does not pass ends the replay,** with its number if it is
garbled. -/
theorem replay_of_garbled (index : Index)
    (framed : Text.Framed text (before ++ line :: after) rest)
    (passes : ∀ line ∈ before, Passes index.dimension line) (garbled : Garbled line) :
    replay index text = .error (.unreadable (before.length + 1)) := by
  rw [replay, replayLines_of_framed index framed passes, List.map_cons, List.cons_append,
    replayLines_garbled garbled]

/-- The first line that does not pass is among those that a line feed ends, or it is what
is behind them. -/
theorem first_of_split (split : lines ++ [rest] = before ++ line :: after) :
    (∃ more, lines = before ++ line :: more) ∨ before = lines ∧ line = rest := by
  rcases List.eq_nil_or_concat after with rfl | ⟨more, last, rfl⟩
  · obtain ⟨same, one⟩ := List.append_inj' split rfl
    cases one
    exact .inr ⟨same.symm, rfl⟩
  · rw [List.concat_eq_append, ← List.cons_append, ← List.append_assoc] at split
    exact .inl ⟨more, (List.append_inj' split rfl).1⟩

/-- … and with the reason why the index refuses its record otherwise. -/
theorem replay_of_refused (index : Index) (framed : Text.Framed text lines rest)
    (split : lines ++ [rest] = before ++ line :: after)
    (passes : ∀ line ∈ before, Passes index.dimension line)
    (refused : Refused index.dimension line fault) :
    replay index text = .error (.refused fault) := by
  rcases first_of_split split with ⟨more, rfl⟩ | ⟨rfl, rfl⟩
  · have fed := refused_feed.2 refused
    rw [replay, replayLines_of_framed index framed passes, List.map_cons, List.cons_append,
      replayLines_refused (index.overlay _) fed]
  · have something : line ≠ [] := by
      rintro rfl
      exact refused.not_blank nofun
    rw [← List.append_nil before] at framed
    rw [replay, replayLines_of_framed index framed passes, if_neg something, List.map_nil,
      List.nil_append, replayLines_refused (index.overlay _) refused]

/-! ## The four kinds of texts -/

/-- Which lines of a text pass, and which is the first that does not. -/
inductive Survey (dimension : UInt64) (lines : List (List Char)) (rest : List Char) : Prop
  | whole (passes : ∀ line ∈ lines, Passes dimension line) (last : Passes dimension rest)
  | torn (passes : ∀ line ∈ lines, Passes dimension line) (last : Garbled rest)
  | garbled (before : List (List Char)) (line : List Char) (after : List (List Char))
      (split : lines = before ++ line :: after)
      (passes : ∀ line ∈ before, Passes dimension line) (here : Garbled line)
  | refused (before : List (List Char)) (line : List Char) (after : List (List Char))
      (fault : Embedding.Fault) (split : lines ++ [rest] = before ++ line :: after)
      (passes : ∀ line ∈ before, Passes dimension line) (here : Refused dimension line fault)

/-- **Every text is of one of the four kinds.** -/
theorem survey (dimension : UInt64) (lines : List (List Char)) (rest : List Char) :
    Survey dimension lines rest := by
  induction lines with
  | nil =>
      rcases passes_or dimension rest with passes | garbled | ⟨fault, refused⟩
      · exact .whole nofun passes
      · exact .torn nofun garbled
      · exact .refused [] rest [] fault rfl nofun refused
  | cons first lines ih =>
      rcases passes_or dimension first with passes | garbled | ⟨fault, refused⟩
      · have also {more : List (List Char)} (later : ∀ line ∈ more, Passes dimension line) :
            ∀ line ∈ first :: more, Passes dimension line :=
          List.forall_mem_cons.2 ⟨passes, later⟩
        cases ih with
        | whole later last => exact .whole (also later) last
        | torn later last => exact .torn (also later) last
        | garbled before line after split later here =>
            exact .garbled (first :: before) line after (by rw [split]; rfl) (also later) here
        | refused before line after fault split later here =>
            exact .refused (first :: before) line after fault (by rw [List.cons_append, split]; rfl)
              (also later) here
      · exact .garbled [] first lines rfl nofun garbled
      · exact .refused [] first (lines ++ [rest]) fault rfl nofun refused

/-- What the replay of a text of each kind comes to. -/
inductive Replayed (index : Index) (lines : List (List Char)) (rest : List Char) :
    Except Fault (Index × Option (List Char)) → Prop
  | whole (passes : ∀ line ∈ lines, Passes index.dimension line)
      (last : Passes index.dimension rest) :
      Replayed index lines rest
        (.ok (index.overlay ((recordsOn (lines ++ [rest])).map Record.entry), none))
  | torn (passes : ∀ line ∈ lines, Passes index.dimension line) (last : Garbled rest) :
      Replayed index lines rest
        (.ok (index.overlay ((recordsOn (lines ++ [rest])).map Record.entry),
          some (Text.ended lines)))
  | garbled (before : List (List Char)) (line : List Char) (after : List (List Char))
      (split : lines = before ++ line :: after)
      (passes : ∀ line ∈ before, Passes index.dimension line) (here : Garbled line) :
      Replayed index lines rest (.error (.unreadable (before.length + 1)))
  | refused (before : List (List Char)) (line : List Char) (after : List (List Char))
      (fault : Embedding.Fault) (split : lines ++ [rest] = before ++ line :: after)
      (passes : ∀ line ∈ before, Passes index.dimension line)
      (here : Refused index.dimension line fault) :
      Replayed index lines rest (.error (.refused fault))

/-- **A replay ends as the first line says that does not pass.** -/
theorem replayed (index : Index) (framed : Text.Framed text lines rest) :
    Replayed index lines rest (replay index text) := by
  cases survey index.dimension lines rest with
  | whole passes last =>
      rw [replay_of_passes index framed passes last]
      exact .whole passes last
  | torn passes last =>
      rw [replay_of_torn index framed passes last]
      exact .torn passes last
  | garbled before line after split passes here =>
      rw [split] at framed
      rw [replay_of_garbled index framed passes here]
      exact .garbled before line after split passes here
  | refused before line after fault split passes here =>
      rw [replay_of_refused index framed split passes here]
      exact .refused before line after fault split passes here

/-- What a torn log is cut to is replayed to the same index, and nothing more is cut off. -/
theorem replay_of_cut {reached : Index} {kept : List Char}
    (cut : replay index text = .ok (reached, some kept)) :
    replay index kept = .ok (reached, none) := by
  obtain ⟨lines, rest, framed⟩ := Text.exists_framed text
  have replayed := Log.replayed index framed
  rw [cut] at replayed
  cases replayed with
  | torn passes garbled =>
      have whole : Text.Framed (Text.ended lines) lines [] :=
        ⟨(List.append_nil _).symm, framed.unbroken, List.not_mem_nil⟩
      have blank : Record.read? (Text.trim []) = none := read?_of_blank nofun
      have nothing : recordsOn [rest] = recordsOn [[]] := by simp [recordsOn, garbled.2, blank]
      rw [replay_of_passes index whole passes (.inl nofun), recordsOn_append, ← nothing,
        ← recordsOn_append]

end Log

end Retrieval
