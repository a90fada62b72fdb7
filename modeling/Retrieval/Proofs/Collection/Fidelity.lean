/-
# Retrieval.Proofs.Collection.Fidelity -- the log keeps embeddings as they are

Every finite float is legible, so an embedding that an index takes is always read back
from its line (`Record.sound_of_valid`).  What is flushed is therefore found unchanged
when the collection is opened again, down to the sign of a zero and the last bit of a
subnormal number (`Record.survives`).
-/
import Retrieval.Proofs.Collection.History
import Retrieval.Proofs.Decimal.Legible

namespace Retrieval

set_option autoImplicit false

open Collection (Action Session Ledger Home)

namespace Record

variable {r : Record} {dimension : UInt64}

theorem readable_of_isFinite (finite : ∀ x ∈ r.vector, x.isFinite = true) : r.Readable :=
  fun x member => ⟨finite x member, Binary.legible_of_isFinite (finite x member)⟩

/-- **Whatever an index takes can be logged.** -/
theorem sound_of_valid (valid : r.vector.Valid dimension) : r.Sound dimension :=
  ⟨valid, fun x member => Binary.legible_of_isFinite (valid.finite x member)⟩

end Record

namespace Collection

/-- Every action is legible. -/
theorem Action.legible (dimension : UInt64) (a : Action) : a.Legible dimension := by
  cases a with
  | inserts handle id v =>
      intro valid x member
      exact Binary.legible_of_isFinite (valid.finite x member)
  | opens => trivial
  | flushes handle device => trivial
  | drops handle => trivial

namespace Session

variable {path : String} {place : List String} {asked : Header} {s : Session} {l : Ledger}

/-- The session and its ledger agree after every history. -/
theorem agrees_of_run {disk : Disk} (home : Home disk path place []) {actions : List Action}
    (undone : Undoes path asked { disk } actions)
    (ran : run path asked { disk } {} actions = (s, l)) : Agrees path place asked s l := by
  have agrees := run_agrees (agrees_start home asked)
    (fun a _ => a.legible asked.dimension) undone
  rwa [ran] at agrees

end Session

end Collection

namespace Record

/-- The last record of a number is the one that counts. -/
theorem get?_last (before rest : List Record) (r : Record) (last : ∀ t ∈ rest, t.id ≠ r.id) :
    Entries.get? r.id ((before ++ r :: rest).map entry).reverse = some r.vector := by
  have later : Entries.get? r.id (rest.map entry).reverse = none := by
    by_contra other
    obtain ⟨v, found⟩ := Option.ne_none_iff_exists'.1 other
    obtain ⟨t, member, same⟩ := List.mem_map.1 (List.mem_reverse.1 (Entries.mem_of_get? found))
    exact last t member (congrArg Prod.fst same)
  rw [List.map_append, List.map_cons, List.reverse_append, List.reverse_cons, List.append_assoc,
    Entries.get?_append, later, List.singleton_append, entry, Entries.get?_cons, if_pos rfl]
  rfl

/-- **A record survives in the log, bit for bit.**  Its line is read back as the record.
And once it has been flushed, in any history of the collection in which flushes that fail are
undone, opening the collection gives its embedding under its number, unless another record
was flushed for it later. -/
theorem survives (r : Record) (finite : ∀ x ∈ r.vector, x.isFinite = true) :
    (∃ line, r.bytes.text? = some line ∧ Text.lines line = [line] ∧
      read? (Text.trim line) = some r) ∧
    ∀ {path place asked disk actions s l}, Home disk path place [] →
      Session.Undoes path asked { disk } actions →
      Session.run path asked { disk } {} actions = (s, l) →
      ∀ before rest, l.flushed = before ++ r :: rest → (∀ t ∈ rest, t.id ≠ r.id) →
        ∃ after c, Collection.openAt path asked s.disk = (after, .ok c) ∧
          c.index.get? r.id = some r.vector := by
  have readable := readable_of_isFinite finite
  constructor
  · refine ⟨r.line, Bytes.text?_ofText _, ?_, ?_⟩
    · have lines : Text.lines (Log.text [r]) = [r].map Record.line :=
        Log.lines_text (by simpa using readable)
      simpa using lines
    · rw [Log.trim_line readable, read?_text readable]
  · intro path place asked disk actions s l home undone ran before rest flushed last
    obtain ⟨after, opened, -⟩ := (Session.agrees_of_run home undone ran).opens
    refine ⟨after, _, opened, ?_⟩
    rw [Index.get?_overlay, flushed, get?_last before rest r last]
    rfl

/-! ### Floats at the ends -/

/-- A negative zero, the least positive float, one tenth, and the largest float. -/
def sampleExtremes : Record :=
  ⟨7, [.zero true, .number false 1 (by decide), .ofRatio false 1 10,
    .number true (Format.single.infinity - 1) (by decide)]⟩

/-- It is flushed, and another record after it. -/
def sampleFlushes : List Action :=
  [.opens, .inserts 0 7 sampleExtremes.vector, .flushes 0 .reliable,
    .inserts 0 8 [.ofInt 1, .ofInt 2, .ofInt 3, .ofInt 4], .flushes 0 .reliable]

theorem survives_extremes :
    (∃ line, sampleExtremes.bytes.text? = some line ∧ Text.lines line = [line] ∧
      read? (Text.trim line) = some sampleExtremes) ∧
    ∃ s l after c,
      Session.run "c" ⟨4, .euclidean⟩ { disk := Session.sampleDisk } {} sampleFlushes = (s, l) ∧
      Collection.openAt "c" ⟨4, .euclidean⟩ s.disk = (after, .ok c) ∧
      c.index.get? 7 = some sampleExtremes.vector := by
  have finite : ∀ x ∈ sampleExtremes.vector, x.isFinite = true := by decide
  obtain ⟨readBack, kept⟩ := survives sampleExtremes finite
  have home : Home Session.sampleDisk "c" ["c"] [] := ⟨rfl, .inr (by decide), by decide⟩
  have cuts : ∀ a ∈ sampleFlushes, a.CutsBack := by
    simp [sampleFlushes, Action.CutsBack, Device.reliable]
  refine ⟨readBack, ?_⟩
  have flushed : (Session.run "c" ⟨4, .euclidean⟩ { disk := Session.sampleDisk } {}
      sampleFlushes).2.flushed =
        [sampleExtremes, ⟨8, [.ofInt 1, .ofInt 2, .ofInt 3, .ofInt 4]⟩] := by decide +kernel
  cases ran : Session.run "c" ⟨4, .euclidean⟩ { disk := Session.sampleDisk } {} sampleFlushes with
  | mk s l =>
      rw [ran] at flushed
      obtain ⟨after, c, opened, found⟩ := kept home (Session.undoes_of_cutsBack cuts) ran [] [_] flushed (by decide)
      exact ⟨s, l, after, c, rfl, opened, found⟩

end Record

end Retrieval
