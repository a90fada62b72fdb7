/-
# Retrieval.Proofs.Store.Backend -- the index behind a store

What a backend holds changes by insertions only.  A backend that was opened holds the
index it was asked for, overlaid with the records that were replayed, which are valid
whatever the log is (`Backend.openAt_index`).  Insertions overlay the index with their
records, and on disk they are queued (`Backend.gain`); a valid embedding is never refused
(`Backend.insert_of_valid`).  A flush leaves the index alone, whether it succeeds or not
(`Backend.flush_index`).
-/
import Retrieval.Backend
import Retrieval.Proofs.Collection.Place
import Retrieval.Proofs.Except

namespace Retrieval

set_option autoImplicit false

/-! ## Opening -/

namespace Log

/-- On lines that pass, and on those that are no record, are valid embeddings only. -/
theorem valid_of_mem_recordsOn {dimension : UInt64} {lines : List (List Char)}
    (passes : ∀ line ∈ lines, Passes dimension line ∨ Garbled line) :
    ∀ r ∈ recordsOn lines, r.vector.Valid dimension := by
  intro r member
  obtain ⟨line, stored, read⟩ := List.mem_filterMap.1 member
  rcases passes line stored with (blank | ⟨other, found, valid⟩) | garbled
  · rw [read?_of_blank blank] at read
    cases read
  · cases found.symm.trans read
    exact valid
  · rw [garbled.2] at read
    cases read

/-- A replay overlays the index with valid embeddings, whatever the lines are. -/
theorem replay_index {index after : Index} {text : List Char} {kept : Option (List Char)}
    (done : replay index text = .ok (after, kept)) :
    ∃ records : List Record, (∀ r ∈ records, r.vector.Valid index.dimension) ∧
      after = index.overlay (records.map Record.entry) := by
  obtain ⟨lines, rest, framed⟩ := Text.exists_framed text
  have replayed := replayed index framed
  rw [done] at replayed
  have every {p : List Char → Prop} (first : ∀ line ∈ lines, p line) (last : p rest) :
      ∀ line ∈ lines ++ [rest], p line := by
    intro line member
    rcases List.mem_append.1 member with before | here
    · exact first line before
    · exact List.mem_singleton.1 here ▸ last
  cases replayed with
  | whole passes last =>
      exact ⟨_, valid_of_mem_recordsOn (every (fun line member => .inl (passes line member))
        (.inl last)), rfl⟩
  | torn passes last =>
      exact ⟨_, valid_of_mem_recordsOn (every (fun line member => .inl (passes line member))
        (.inr last)), rfl⟩

end Log

namespace Collection

variable {path : String} {asked : Header} {c : Collection}

theorem replayLog_index {index after : Index} {f g : Folder}
    (done : replayLog path index f = (g, .ok after)) :
    ∃ records : List Record, (∀ r ∈ records, r.vector.Valid index.dimension) ∧
      after = index.overlay (records.map Record.entry) := by
  unfold replayLog at done
  split at done
  · split at done
    · cases done
    · split at done
      · cases done
      · cases done
      · rename_i replayed
        cases done
        exact Log.replay_index replayed
      · rename_i replayed
        cases done
        exact Log.replay_index replayed
  · cases done
    exact ⟨[], nofun, rfl⟩

theorem openIn_index {f g : Folder} (done : openIn path asked f = (g, .ok c)) :
    ∃ records : List Record, (∀ r ∈ records, r.vector.Valid asked.dimension) ∧
      c = { path, index := (fresh asked).overlay (records.map Record.entry) } := by
  unfold openIn at done
  split at done
  · cases done
  · split at done
    · cases done
    · rename_i replayed
      cases done
      obtain ⟨records, valid, index⟩ := replayLog_index replayed
      exact ⟨records, valid, by rw [index]; rfl⟩

theorem openCramped_index {f : Folder} (done : openCramped path asked f = .ok c) :
    c = { path, index := fresh asked } := by
  unfold openCramped at done
  split at done
  · cases done
  · obtain ⟨stored, -, done⟩ := bind_eq_ok_iff.1 done
    obtain ⟨_, -, done⟩ := bind_eq_ok_iff.1 done
    cases done
    rfl

/-- **A collection that opens holds what was replayed,** from the index asked for on, and
nothing is pending. -/
theorem openAt_index {disk after : Disk} (done : openAt path asked disk = (after, .ok c)) :
    ∃ records : List Record, (∀ r ∈ records, r.vector.Valid asked.dimension) ∧
      c = { path, index := (fresh asked).overlay (records.map Record.entry) } := by
  cases opens_of_openAt done with
  | inside _ _ opened => exact openIn_index opened
  | cramped _ _ _ found => exact ⟨[], nofun, openCramped_index found⟩

end Collection

namespace Backend

variable {b : Backend}

/-- The records that are not on disk yet. -/
def queue : Backend → List Record
  | ephemeral _ => []
  | durable c => c.pending

/-- A backend that was opened is in order and as it was asked for, and nothing is queued. -/
theorem openAt_index {path : Option String} {asked : Header} {disk after : Disk}
    (done : Backend.openAt path asked disk = (after, .ok b)) :
    ∃ records : List Record, (∀ r ∈ records, r.vector.Valid asked.dimension) ∧
      b.index = (Collection.fresh asked).overlay (records.map Record.entry) ∧ b.queue = [] := by
  cases path with
  | none =>
      cases done
      exact ⟨[], nofun, rfl, rfl⟩
  | some path =>
      cases opened : Collection.openAt path asked disk with
      | mk disk' result =>
          cases result with
          | error e =>
              simp only [Backend.openAt, opened] at done
              cases done
          | ok c =>
              simp only [Backend.openAt, opened] at done
              cases done
              obtain ⟨records, valid, rfl⟩ := Collection.openAt_index opened
              exact ⟨records, valid, rfl, rfl⟩

/-- In memory a backend starts with nothing. -/
theorem openAt_ephemeral {asked : Header} {disk after : Disk}
    (done : Backend.openAt none asked disk = (after, .ok b)) :
    b.index = Collection.fresh asked := by
  cases done
  rfl

/-! ## Changing -/

/-- The backend with more records, put in one after the other. -/
def gain (b : Backend) (records : List Record) : Backend :=
  match b with
  | ephemeral index => ephemeral (index.overlay (records.map Record.entry))
  | durable c => durable { c with
      index := c.index.overlay (records.map Record.entry), pending := c.pending ++ records }

theorem gain_nil (b : Backend) : b.gain [] = b := by
  cases b with
  | ephemeral index => rfl
  | durable c => simp [gain]

theorem gain_gain (b : Backend) (r s : List Record) : (b.gain r).gain s = b.gain (r ++ s) := by
  cases b <;> simp [gain, Index.overlay_append]

theorem gain_index (b : Backend) (records : List Record) :
    (b.gain records).index = b.index.overlay (records.map Record.entry) := by
  cases b <;> rfl

theorem gain_path? (b : Backend) (records : List Record) : (b.gain records).path? = b.path? := by
  cases b <;> rfl

theorem gain_queue (b : Backend) (records : List Record) :
    (b.gain records).queue = b.queue ++ if b.isDurable then records else [] := by
  cases b <;> rfl

theorem insert_of_valid {v : Embedding} (id : DocumentId)
    (valid : v.fault? b.index.dimension = none) : b.insert id v = .ok (b.gain [⟨id, v⟩]) := by
  cases b with
  | ephemeral index =>
      have accepted : index.insert id v = .ok (index.overlay [(id, v)]) :=
        Index.insert_of_valid id valid
      rw [insert, accepted]
      rfl
  | durable c =>
      have accepted := Collection.insert_of_valid (c := c) id valid
      rw [insert, accepted]
      rfl

theorem insert_of_fault {v : Embedding} {fault : Embedding.Fault} (id : DocumentId)
    (refused : v.fault? b.index.dimension = some fault) : b.insert id v = .error fault := by
  cases b with
  | ephemeral index =>
      have stopped : index.insert id v = .error fault := Index.insert_of_fault id refused
      rw [insert, stopped]
      rfl
  | durable c =>
      have stopped := Collection.insert_of_fault (c := c) id refused
      rw [insert, stopped]
      rfl

/-- A flush leaves the index alone. -/
theorem flush_index (b : Backend) (device : Device) (disk : Disk) :
    (b.flush device disk).2.1.index = b.index := by
  cases b with
  | ephemeral index => rfl
  | durable c => exact Collection.flushAt_index c device disk

/-- After a flush the queue is as it was, or empty. -/
theorem flush_queue (b : Backend) (device : Device) (disk : Disk) :
    (b.flush device disk).2.1.queue = b.queue ∨ (b.flush device disk).2.1.queue = [] := by
  cases b with
  | ephemeral index => exact .inl rfl
  | durable c =>
      have settled := Collection.flushAt_settles c device disk
      have flushed : ((durable c).flush device disk).2.1.queue =
          (c.flushAt device disk).2.1.pending := rfl
      rw [flushed]
      generalize c.flushAt device disk = result at settled ⊢
      obtain ⟨after, c', failure⟩ := result
      cases settled with
      | written => exact .inr rfl
      | undone => exact .inl rfl

end Backend

end Retrieval
