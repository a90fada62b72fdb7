/-
# Retrieval.Proofs.Collection.Recovery -- appending to a log that was cut

A crash cuts the log anywhere.  The collection opens all the same, with the records of
some first part of the log (`Collection.openAt_cut`), and what is flushed then should
be there, in addition, when it is opened the next time.

It is, unless the cut falls between the last brace of a record and its line feed
(`Log.CutBare`).  That line counts as a record and stays without its line feed, so the
first record that is appended goes on in the same line, and the collection does not
open again.  `Collection.reopens_iff` has both directions; `bareCut_loses_flush` is one
such case from beginning to end.
-/
import Retrieval.Proofs.Collection.Place

namespace Retrieval

set_option autoImplicit false

namespace Log

variable {records : List Record} {n : Nat}

/-! ## The cut without line feed -/

/-- The cut falls between the last brace of a record and its line feed. -/
def CutBare (records : List Record) (n : Nat) : Prop :=
  ∃ whole r rest, records = whole ++ r :: rest ∧ n + 1 = (bytes (whole ++ [r])).length

theorem length_bytes (readable : ∀ r ∈ records, r.Readable) :
    (bytes records).length = (text records).length := by
  rw [bytes_eq, Bytes.length_ofText (isAscii_of_mem_text readable)]

theorem getLast?_text_ne (records : List Record) : (text records).getLast? ≠ some '}' := by
  rcases List.eq_nil_or_concat records with rfl | ⟨whole, r, rfl⟩
  · simp
  · simp [Record.line]

theorem getLast?_torn_ne (whole : List Record) {r : Record} (readable : r.Readable)
    {fragment : List Char} (nonempty : fragment ≠ []) (isPrefix : fragment <+: r.text)
    (strict : fragment ≠ r.text) : (text whole ++ fragment).getLast? ≠ some '}' := by
  rw [List.getLast?_append, List.getLast?_eq_some_getLast nonempty]
  intro same
  have last : fragment.getLast nonempty = '}' := Option.some.inj same
  exact Record.brace_not_mem readable isPrefix strict (last ▸ List.getLast_mem nonempty)

theorem getLast?_bare (whole : List Record) (r : Record) :
    (text whole ++ r.text).getLast? = some '}' := by
  rw [List.getLast?_append, r.getLast?_text]
  rfl

/-- It is the cut that leaves a brace at the end. -/
theorem cutBare_iff (readable : ∀ r ∈ records, r.Readable) :
    CutBare records n ↔ ((text records).take n).getLast? = some '}' := by
  constructor
  · rintro ⟨whole, r, rest, rfl, place⟩
    have some : ∀ s ∈ whole ++ [r], s.Readable := by
      intro s member
      refine readable s ?_
      rw [List.append_cons]
      exact List.mem_append_left _ member
    rw [length_bytes some, text_append, List.length_append] at place
    have length : n = (text whole ++ r.text).length := by
      simp only [text_cons, text_nil, Record.line, List.length_append, List.length_cons,
        List.length_nil] at place ⊢
      omega
    have left : (text (whole ++ r :: rest)).take n = text whole ++ r.text := by
      rw [length, text_append, text_cons, Record.line, List.append_assoc, ← List.append_assoc,
        List.take_left]
    rw [left, getLast?_bare]
  · intro brace
    cases cut records n with
    | between whole rest split left =>
        rw [left] at brace
        exact absurd brace (getLast?_text_ne whole)
    | inside whole r rest fragment split nonempty isPrefix strict left =>
        rw [left] at brace
        have torn := readable r (by simp [split])
        exact absurd brace (getLast?_torn_ne whole torn nonempty isPrefix strict)
    | bare whole r rest split place left =>
        refine ⟨whole, r, rest, split, ?_⟩
        rw [place, length_bytes]
        intro s member
        refine readable s ?_
        rw [split, List.append_cons]
        exact List.mem_append_left _ member

end Log

namespace Collection

variable {path : String} {place : List String} {asked : Header} {disk : Disk}
variable {records : List Record} {n : Nat}

/-! ## The first opening -/

/-- **A log that was cut anywhere opens,** with the records of a first part of it.  The
log is then that of these records; only when the cut was between a record and its line
feed, this line feed is missing. -/
theorem openAt_cut (sound : ∀ r ∈ records, r.Sound asked.dimension)
    (stored : StoredAt path place asked ((Log.bytes records).take n) disk) :
    ∃ kept after, kept <+: records ∧
      openAt path asked disk =
        (after, .ok { path, index := (fresh asked).overlay (kept.map Record.entry) }) ∧
      (¬ Log.CutBare records n ∧ StoredAt path place asked (Log.bytes kept) after ∨
        Log.CutBare records n ∧ ∃ whole r, kept = whole ++ [r] ∧
          StoredAt path place asked (Bytes.ofText (Log.text whole ++ r.text)) after) := by
  have readable : ∀ r ∈ records, r.Readable := fun r member => (sound r member).readable
  rw [Log.bytes_eq, Bytes.take_ofText (Log.isAscii_of_mem_text readable)] at stored
  rw [Log.cutBare_iff readable]
  cases Log.cut records n with
  | between whole rest split left =>
      have isPrefix : whole <+: records := ⟨rest, split.symm⟩
      rw [left] at stored ⊢
      obtain ⟨after, opened, stored⟩ := openAt_of_whole stored
        (Log.replay_text fun r member => sound r (isPrefix.subset member))
      rw [← Log.bytes_eq] at stored
      exact ⟨whole, after, isPrefix, opened, .inl ⟨Log.getLast?_text_ne whole, stored⟩⟩
  | inside whole r rest fragment split nonempty cutPrefix strict left =>
      have isPrefix : whole <+: records := ⟨r :: rest, split.symm⟩
      have torn := readable r (by simp [split])
      rw [left] at stored ⊢
      obtain ⟨after, opened, stored⟩ := openAt_of_torn stored
        (Log.replay_torn (fun r member => sound r (isPrefix.subset member)) torn nonempty cutPrefix
          strict)
      rw [← Log.bytes_eq] at stored
      exact ⟨whole, after, isPrefix, opened,
        .inl ⟨Log.getLast?_torn_ne whole torn nonempty cutPrefix strict, stored⟩⟩
  | bare whole r rest split place left =>
      have isPrefix : whole ++ [r] <+: records := ⟨rest, by rw [split, ← List.append_cons]⟩
      have all : ∀ s ∈ whole ++ [r], s.Sound asked.dimension :=
        fun s member => sound s (isPrefix.subset member)
      rw [left] at stored ⊢
      obtain ⟨after, opened, stored⟩ := openAt_of_whole stored
        (Log.replay_bare (fun s member => all s (List.mem_append_left _ member))
          (all r (by simp)))
      exact ⟨whole ++ [r], after, isPrefix, opened,
        .inr ⟨Log.getLast?_bare whole r, whole, r, rfl, stored⟩⟩

/-! ## Insertions -/

/-- Insert records, all of them or none. -/
def insertAll (c : Collection) : List Record → Except Embedding.Fault Collection
  | [] => .ok c
  | r :: rest =>
      match c.insert r.id r.vector with
      | .error f => .error f
      | .ok c => c.insertAll rest

/-- Records that are accepted overlay the index and are pending. -/
theorem insertAll_eq_ok {c after : Collection} (done : c.insertAll records = .ok after) :
    (∀ r ∈ records, r.vector.Valid c.index.dimension) ∧
      after = { c with
        index := c.index.overlay (records.map Record.entry), pending := c.pending ++ records } := by
  induction records generalizing c with
  | nil =>
      cases done
      exact ⟨nofun, by simp⟩
  | cons r records ih =>
      rw [insertAll] at done
      cases fault : r.vector.fault? c.index.dimension with
      | some f =>
          rw [insert_of_fault r.id fault] at done
          cases done
      | none =>
          rw [insert_of_valid r.id fault] at done
          obtain ⟨valid, rfl⟩ := ih done
          refine ⟨?_, ?_⟩
          · intro s member
            rcases List.mem_cons.1 member with rfl | later
            · exact Embedding.fault?_eq_none_iff.1 fault
            · exact valid s later
          · rw [List.map_cons, Index.overlay_cons, List.append_assoc]
            rfl

/-! ## The second opening -/

variable {c c' : Collection} {device : Device} {after : Disk}

/-- Behind a whole log, what is flushed is replayed. -/
theorem reopen_whole {kept : List Record} (samePath : c.path = path)
    (sound : ∀ r ∈ kept ++ c.pending, r.Sound asked.dimension)
    (stored : StoredAt path place asked (Log.bytes kept) disk)
    (flushed : c.flushAt device disk = (after, c', none)) :
    ∃ last, openAt path asked after =
      (last, .ok ⟨path, (fresh asked).overlay ((kept ++ c.pending).map Record.entry), []⟩) := by
  obtain ⟨stored, -⟩ := flushAt_of_ok samePath stored flushed
  rw [← Log.bytes_append, Log.bytes_eq] at stored
  obtain ⟨last, opened, -⟩ := openAt_of_whole stored (Log.replay_text sound)
  exact ⟨last, opened⟩

/-- Behind a line without line feed, what is flushed makes the log unreadable. -/
theorem reopen_bare {whole : List Record} {r first : Record} {more : List Record}
    (samePath : c.path = path) (sound : ∀ s ∈ whole ++ [r], s.Sound asked.dimension)
    (pending : c.pending = first :: more) (readable : first.Readable)
    (stored : StoredAt path place asked (Bytes.ofText (Log.text whole ++ r.text)) disk)
    (flushed : c.flushAt device disk = (after, c', none)) :
    (openAt path asked after).2 = .error (unreadableLine path (whole.length + 1)) := by
  obtain ⟨stored, -⟩ := flushAt_of_ok samePath stored flushed
  rw [pending, Log.bytes_eq, ← Bytes.ofText_append, Log.text_cons, List.append_assoc] at stored
  exact openAt_of_unreadable stored
    (Log.replay_glued (fun s member => sound s (List.mem_append_left _ member))
      (sound r (by simp)).readable readable (Log.text more))

/-- **When a flush behind a cut log is there the next time.**  A log that was cut
anywhere opens.  After insertions that are accepted and a flush that succeeds, it opens
again with the index overlaid with what was inserted -- exactly if nothing was inserted
or the cut was not between a record and its line feed.  Otherwise the log is corrupt in
the line of that record. -/
theorem reopens_iff (sound : ∀ r ∈ records, r.Sound asked.dimension)
    (stored : StoredAt path place asked ((Log.bytes records).take n) disk) :
    ∃ disk₁ c₁, openAt path asked disk = (disk₁, .ok c₁) ∧
      ∃ kept, kept <+: records ∧ c₁.index = (fresh asked).overlay (kept.map Record.entry) ∧
      ∀ added c₂, c₁.insertAll added = .ok c₂ → (∀ r ∈ added, ∀ x ∈ r.vector, x.Legible) →
      ∀ device disk₂ c₃, c₂.flushAt device disk₁ = (disk₂, c₃, none) →
        ((∃ disk₃ c₄, openAt path asked disk₂ = (disk₃, .ok c₄) ∧
            c₄.index = c₁.index.overlay (added.map Record.entry)) ↔
          added = [] ∨ ¬ Log.CutBare records n) ∧
        (¬ (added = [] ∨ ¬ Log.CutBare records n) →
          (openAt path asked disk₂).2 = .error (unreadableLine path kept.length)) := by
  obtain ⟨kept, disk₁, isPrefix, opened, state⟩ := openAt_cut sound stored
  refine ⟨disk₁, _, opened, kept, isPrefix, rfl, ?_⟩
  intro added c₂ inserted legible device disk₂ c₃ flushed
  obtain ⟨valid, rfl⟩ := insertAll_eq_ok inserted
  have keptSound : ∀ r ∈ kept, r.Sound asked.dimension :=
    fun r member => sound r (isPrefix.subset member)
  have addedSound : ∀ r ∈ added, r.Sound asked.dimension :=
    fun r member => ⟨valid r member, legible r member⟩
  rcases state with ⟨notBare, stored⟩ | ⟨bare, whole, r, rfl, stored⟩
  · have all : ∀ r ∈ kept ++ added, r.Sound asked.dimension := fun r member =>
      (List.mem_append.1 member).elim (keptSound r) (addedSound r)
    obtain ⟨last, reopened⟩ := reopen_whole rfl all stored flushed
    refine ⟨iff_of_true ⟨last, _, reopened, ?_⟩ (.inr notBare), ?_⟩
    · rw [List.nil_append, List.map_append, Index.overlay_append]
    · intro bad
      exact absurd (.inr notBare) bad
  · cases added with
    | nil =>
        rw [flushAt_of_nil rfl] at flushed
        cases flushed
        have wholeSound : ∀ s ∈ whole, s.Sound (fresh asked).dimension :=
          fun s member => keptSound s (List.mem_append_left _ member)
        obtain ⟨last, reopened, -⟩ := openAt_of_whole stored
          (Log.replay_bare wholeSound (keptSound r (by simp)))
        refine ⟨iff_of_true ⟨last, _, reopened, rfl⟩ (.inl rfl), ?_⟩
        intro bad
        exact absurd (.inl rfl) bad
    | cons first more =>
        have corrupt := reopen_bare rfl keptSound rfl (addedSound first (by simp)).readable stored
          flushed
        refine ⟨iff_of_false ?_ ?_, ?_⟩
        · rintro ⟨disk₃, c₄, reopened, -⟩
          rw [reopened] at corrupt
          cases corrupt
        · rintro (nothing | notBare)
          · exact List.cons_ne_nil first more nothing
          · exact notBare bare
        · intro _
          rw [List.length_append]
          exact corrupt

/-! ### One record, cut twice -/

/-- A log of one record. -/
def sampleLog : List Record := [⟨1, [.ofInt 1, .ofInt 0]⟩]

theorem sampleLog_sound : ∀ r ∈ sampleLog, r.Sound 2 := by
  intro r member
  rw [List.mem_singleton.1 member]
  exact ⟨Embedding.fault?_eq_none_iff.1 (by decide), by decide +kernel⟩

/-- The record that is inserted after the crash. -/
def sampleAdded : Record := ⟨2, [.ofInt 0, .ofInt 1]⟩

theorem insertAll_sampleAdded {c : Collection} (dimension : c.index.dimension = 2) :
    ∃ after, c.insertAll [sampleAdded] = .ok after ∧ after.path = c.path ∧
      after.pending = c.pending ++ [sampleAdded] := by
  have valid : sampleAdded.vector.fault? c.index.dimension = none := by
    rw [dimension]
    decide
  rw [insertAll, insert_of_valid _ valid]
  exact ⟨_, rfl, rfl, rfl⟩

/-- Cut inside of the record, the log takes the next flush. -/
theorem reopens_tornLog :
    ∃ disk₁ c₁ c₂ disk₂ c₃ disk₃ c₄,
      openAt "c" ⟨2, .euclidean⟩ (shelf ⟨2, .euclidean⟩ ((Log.bytes sampleLog).take 12)) =
        (disk₁, .ok c₁) ∧
      c₁.insertAll [sampleAdded] = .ok c₂ ∧
      c₂.flushAt .reliable disk₁ = (disk₂, c₃, none) ∧
      openAt "c" ⟨2, .euclidean⟩ disk₂ = (disk₃, .ok c₄) ∧
      c₄.index = c₁.index.overlay [sampleAdded.entry] := by
  have stored := shelf_storedAt ⟨2, .euclidean⟩ ((Log.bytes sampleLog).take 12)
  have notBare : ¬ Log.CutBare sampleLog 12 := by
    rw [Log.cutBare_iff fun r member => (sampleLog_sound r member).readable]
    decide +kernel
  obtain ⟨kept, disk, -, opened, state⟩ := openAt_cut sampleLog_sound stored
  obtain ⟨disk₁, c₁, opened', _, -, -, next⟩ := reopens_iff sampleLog_sound stored
  cases opened.symm.trans opened'
  obtain ⟨c₂, inserted, samePath, -⟩ := insertAll_sampleAdded
    (c := ⟨"c", (fresh ⟨2, .euclidean⟩).overlay (kept.map Record.entry), []⟩) rfl
  obtain ⟨-, stored⟩ := state.resolve_right fun bare => notBare bare.1
  obtain ⟨disk₂, c₃, flushed⟩ := flushAt_obliging Device.reliable_obliging samePath stored
  have legible : ∀ r ∈ [sampleAdded], ∀ x ∈ r.vector, x.Legible := by decide +kernel
  obtain ⟨disk₃, c₄, reopened, same⟩ :=
    (next [sampleAdded] c₂ inserted legible .reliable disk₂ c₃ flushed).1.2 (.inr notBare)
  exact ⟨disk, _, c₂, disk₂, c₃, disk₃, c₄, opened, inserted, flushed, reopened, same⟩

/-- **Cut behind the record, the log loses the next flush** and itself. -/
theorem bareCut_loses_flush :
    (∀ r ∈ sampleLog, r.Sound 2) ∧ sampleAdded.Sound 2 ∧
    ∃ disk₁ c₁ c₂ disk₂ c₃,
      openAt "c" ⟨2, .euclidean⟩ (shelf ⟨2, .euclidean⟩ ((Log.bytes sampleLog).take 27)) =
        (disk₁, .ok c₁) ∧
      c₁.insertAll [sampleAdded] = .ok c₂ ∧
      c₂.flushAt .reliable disk₁ = (disk₂, c₃, none) ∧
      (openAt "c" ⟨2, .euclidean⟩ disk₂).2 =
        .error (.corrupt "c/vectors.jsonl line 1") := by
  have addedSound : sampleAdded.Sound 2 :=
    ⟨Embedding.fault?_eq_none_iff.1 (by decide), by decide +kernel⟩
  refine ⟨sampleLog_sound, addedSound, ?_⟩
  have stored := shelf_storedAt ⟨2, .euclidean⟩ ((Log.bytes sampleLog).take 27)
  have bare : Log.CutBare sampleLog 27 := by
    rw [Log.cutBare_iff fun r member => (sampleLog_sound r member).readable]
    decide +kernel
  obtain ⟨kept, disk, isPrefix, opened, state⟩ := openAt_cut sampleLog_sound stored
  obtain ⟨-, whole, r, rfl, stored⟩ := state.resolve_left fun good => good.1 bare
  obtain ⟨c₂, inserted, samePath, pending⟩ := insertAll_sampleAdded
    (c := ⟨"c", (fresh ⟨2, .euclidean⟩).overlay ((whole ++ [r]).map Record.entry), []⟩) rfl
  obtain ⟨disk₂, c₃, flushed⟩ := flushAt_obliging Device.reliable_obliging samePath stored
  have corrupt := reopen_bare samePath
    (fun s member => sampleLog_sound s (isPrefix.subset member)) pending addedSound.readable
    stored flushed
  have first : whole = [] := by
    have short := isPrefix.length_le
    rw [List.length_append] at short
    exact List.length_eq_zero_iff.1 (Nat.le_zero.1 (Nat.le_of_succ_le_succ short))
  subst first
  have message : unreadableLine "c" 1 = .corrupt "c/vectors.jsonl line 1" := by decide +kernel
  exact ⟨disk, _, c₂, disk₂, c₃, opened, inserted, flushed, message ▸ corrupt⟩

end Collection

end Retrieval
