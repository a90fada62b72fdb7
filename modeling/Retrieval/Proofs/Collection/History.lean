/-
# Retrieval.Proofs.Collection.History -- what is in the log after any history

A program opens the collection at a path, once or several times, inserts through any
of the collections that are open, flushes them onto devices that may fail, and drops
them (`Action`, `Session.act`).  A `Ledger` is kept beside it by looking at nothing
but which actions succeeded: each open collection has a queue of the records accepted
since its last successful flush, and a successful flush moves the queue to the end of
what was flushed.

`Session.Agrees` is the invariant.  Every action keeps it (`Session.act_agrees`), as
long as the log can be cut back when a flush fails (`Session.Undoes`).  So after every
history that starts from an empty folder the log is that of the flushed records, and
opening the collection replays exactly those (`Session.run_log`).
-/
import Mathlib.Data.List.InsertIdx
import Retrieval.Proofs.Collection.Place

namespace Retrieval

set_option autoImplicit false

namespace Collection

/-! ## Actions and their ledger -/

/-- What a program does with the collections at one path; those that are open are
counted from zero. -/
inductive Action where
  | opens
  | inserts (handle : Nat) (id : DocumentId) (v : Embedding)
  | flushes (handle : Nat) (device : Device)
  | drops (handle : Nat)

/-- If the embedding of an insertion is valid, then its components are legible. -/
def Action.Legible (dimension : UInt64) : Action → Prop
  | .inserts _ _ v => v.Valid dimension → ∀ x ∈ v, x.Legible
  | _ => True

/-- Where a flush goes to, the log can be cut back. -/
def Action.CutsBack : Action → Prop
  | .flushes _ device => device.cut = none
  | _ => True

/-- The disk, and the collections that are open. -/
structure Session where
  disk : Disk
  handles : List Collection := []

/-- The records that were flushed, and for each open collection those that were not. -/
structure Ledger where
  flushed : List Record := []
  queues : List (List Record) := []

/-- Take an action, and say whether it succeeded. -/
def Session.act (path : String) (asked : Header) (s : Session) : Action → Session × Bool
  | .opens =>
      match openAt path asked s.disk with
      | (disk, .ok c) => ({ disk, handles := s.handles ++ [c] }, true)
      | (disk, .error _) => ({ s with disk }, false)
  | .inserts i id v =>
      match s.handles[i]? with
      | none => (s, false)
      | some c =>
          match c.insert id v with
          | .ok c => ({ s with handles := s.handles.set i c }, true)
          | .error _ => (s, false)
  | .flushes i device =>
      match s.handles[i]? with
      | none => (s, false)
      | some c =>
          match c.flushAt device s.disk with
          | (disk, c, none) => ({ disk, handles := s.handles.set i c }, true)
          | (disk, c, some _) => ({ disk, handles := s.handles.set i c }, false)
  | .drops i => ({ s with handles := s.handles.eraseIdx i }, true)

/-- The records of an open collection that were not flushed. -/
def Ledger.queue (l : Ledger) (handle : Nat) : List Record := l.queues.getD handle []

/-- Note an action that succeeded. -/
def Ledger.note (l : Ledger) : Action → Bool → Ledger
  | _, false => l
  | .opens, true => { l with queues := l.queues ++ [[]] }
  | .inserts i id v, true => { l with queues := l.queues.set i (l.queue i ++ [⟨id, v⟩]) }
  | .flushes i _, true => { flushed := l.flushed ++ l.queue i, queues := l.queues.set i [] }
  | .drops i, true => { l with queues := l.queues.eraseIdx i }

/-- Take actions in a row, and keep the ledger. -/
def Session.run (path : String) (asked : Header) (s : Session) (l : Ledger) :
    List Action → Session × Ledger
  | [] => (s, l)
  | a :: rest =>
      let (s', succeeded) := s.act path asked a
      s'.run path asked (l.note a succeeded) rest

/-- Whenever one of the actions fails to flush, the log can be cut back. -/
def Session.Undoes (path : String) (asked : Header) (s : Session) : List Action → Prop
  | [] => True
  | a :: rest =>
      ((s.act path asked a).2 = false → a.CutsBack) ∧
        (s.act path asked a).1.Undoes path asked rest

theorem Session.undoes_of_cutsBack {path : String} {asked : Header} {s : Session}
    {actions : List Action} (cuts : ∀ a ∈ actions, a.CutsBack) : s.Undoes path asked actions := by
  induction actions generalizing s with
  | nil => trivial
  | cons a rest ih =>
      obtain ⟨first, later⟩ := List.forall_mem_cons.1 cuts
      exact ⟨fun _ => first, ih later⟩

/-! ## The invariant -/

/-- What is known of an open collection: it is one at the path, made for the header,
and its pending records can be written and replayed. -/
structure Fits (path : String) (asked : Header) (c : Collection) : Prop where
  path_eq : c.path = path
  dimension_eq : c.index.dimension = asked.dimension
  sound : ∀ r ∈ c.pending, r.Sound asked.dimension

namespace Session

/-- The session is as the ledger says.  Before anything is opened the folder may still
be empty. -/
structure Agrees (path : String) (place : List String) (asked : Header) (s : Session)
    (l : Ledger) : Prop where
  disk : Home s.disk path place [] ∧ l = {} ∨
    StoredAt path place asked (Log.bytes l.flushed) s.disk
  fits : ∀ c ∈ s.handles, c.Fits path asked
  queues : s.handles.map Collection.pending = l.queues
  sound : ∀ r ∈ l.flushed, r.Sound asked.dimension

variable {path : String} {place : List String} {asked : Header} {s : Session} {l : Ledger}

theorem agrees_start {disk : Disk} (home : Home disk path place []) (asked : Header) :
    Agrees path place asked { disk } {} :=
  ⟨.inl ⟨home, rfl⟩, nofun, rfl, nofun⟩

namespace Agrees

variable {i : Nat} {c c' : Collection}

theorem queue_eq (agrees : Agrees path place asked s l) (found : s.handles[i]? = some c) :
    l.queue i = c.pending := by
  rw [Ledger.queue, ← agrees.queues, List.getD_eq_getElem?_getD, List.getElem?_map, found]
  rfl

/-- When a collection is open, one has been made. -/
theorem stored (agrees : Agrees path place asked s l) (found : s.handles[i]? = some c) :
    StoredAt path place asked (Log.bytes l.flushed) s.disk := by
  refine agrees.disk.resolve_left ?_
  rintro ⟨-, rfl⟩
  have none : s.handles = [] := List.map_eq_nil_iff.1 agrees.queues
  simp [none] at found

/-- Opening the collection gives the index of the flushed records. -/
theorem opens (agrees : Agrees path place asked s l) :
    ∃ after, openAt path asked s.disk =
        (after, .ok { path, index := (fresh asked).overlay (l.flushed.map Record.entry) }) ∧
      StoredAt path place asked (Log.bytes l.flushed) after := by
  rcases agrees.disk with ⟨home, rfl⟩ | stored
  · exact openAt_empty home asked
  · rw [Log.bytes_eq] at stored ⊢
    exact openAt_of_whole stored (Log.replay_text agrees.sound)

/-- A collection is exchanged for one that fits, and its queue with it. -/
theorem set (agrees : Agrees path place asked s l) (fits : c'.Fits path asked) (i : Nat)
    {disk : Disk} {flushed : List Record}
    (stored : StoredAt path place asked (Log.bytes flushed) disk)
    (sound : ∀ r ∈ flushed, r.Sound asked.dimension) :
    Agrees path place asked { disk, handles := s.handles.set i c' }
      { flushed, queues := l.queues.set i c'.pending } := by
  refine ⟨.inr stored, ?_, ?_, sound⟩
  · intro other member
    rcases List.mem_or_eq_of_mem_set member with old | rfl
    · exact agrees.fits other old
    · exact fits
  · rw [List.map_set, agrees.queues]

end Agrees

/-! ## One action -/

variable {i : Nat}

theorem opens_agrees (agrees : Agrees path place asked s l) :
    Agrees path place asked (s.act path asked .opens).1
      (l.note .opens (s.act path asked .opens).2) := by
  obtain ⟨after, opened, stored⟩ := agrees.opens
  simp only [act, opened]
  refine ⟨.inr stored, ?_, ?_, agrees.sound⟩
  · intro c member
    rcases List.mem_append.1 member with old | new
    · exact agrees.fits c old
    · rw [List.mem_singleton.1 new]
      exact ⟨rfl, rfl, nofun⟩
  · rw [List.map_append, agrees.queues]
    rfl

theorem inserts_agrees (agrees : Agrees path place asked s l) {id : DocumentId}
    {v : Embedding} (legible : v.Valid asked.dimension → ∀ x ∈ v, x.Legible) :
    Agrees path place asked (s.act path asked (.inserts i id v)).1
      (l.note (.inserts i id v) (s.act path asked (.inserts i id v)).2) := by
  cases found : s.handles[i]? with
  | none =>
      simp only [act, found]
      exact agrees
  | some c =>
      have fits := agrees.fits c (List.mem_of_getElem? found)
      cases fault : v.fault? c.index.dimension with
      | some f =>
          simp only [act, found, insert_of_fault id fault]
          exact agrees
      | none =>
          have valid : v.Valid asked.dimension :=
            Embedding.fault?_eq_none_iff.1 (fits.dimension_eq ▸ fault)
          have after : Fits path asked { c with
              index := c.index.overlay [(id, v)], pending := c.pending ++ [⟨id, v⟩] } := by
            refine ⟨fits.path_eq, fits.dimension_eq, ?_⟩
            intro r member
            rcases List.mem_append.1 member with old | new
            · exact fits.sound r old
            · rw [List.mem_singleton.1 new]
              exact ⟨valid, legible valid⟩
          simp only [act, found, insert_of_valid id fault, Ledger.note, agrees.queue_eq found]
          exact agrees.set after i (agrees.stored found) agrees.sound

theorem flushes_agrees (agrees : Agrees path place asked s l) {device : Device}
    (undone : (s.act path asked (.flushes i device)).2 = false → device.cut = none) :
    Agrees path place asked (s.act path asked (.flushes i device)).1
      (l.note (.flushes i device) (s.act path asked (.flushes i device)).2) := by
  cases found : s.handles[i]? with
  | none =>
      simp only [act, found]
      exact agrees
  | some c =>
      have fits := agrees.fits c (List.mem_of_getElem? found)
      have stored := agrees.stored found
      cases flushed : c.flushAt device s.disk with
      | mk after result =>
          obtain ⟨c', failure⟩ := result
          cases failure with
          | none =>
              obtain ⟨stored, rfl⟩ := flushAt_of_ok fits.path_eq stored flushed
              rw [← Log.bytes_append] at stored
              have cleared : Fits path asked { c with pending := [] } :=
                ⟨fits.path_eq, fits.dimension_eq, by simp⟩
              simp only [act, found, flushed, Ledger.note, agrees.queue_eq found]
              apply agrees.set cleared i stored
              intro r member
              rcases List.mem_append.1 member with old | new
              · exact agrees.sound r old
              · exact fits.sound r new
          | some e =>
              simp only [act, found, flushed, true_implies] at undone
              obtain ⟨stored, rfl⟩ := flushAt_of_error fits.path_eq stored undone flushed
              obtain ⟨inside, here⟩ := List.getElem?_eq_some_iff.1 found
              have same : s.handles.set i c' = s.handles := by
                rw [← here, List.set_getElem_self]
              simp only [act, found, flushed, same]
              exact ⟨.inr stored, agrees.fits, agrees.queues, agrees.sound⟩

theorem drops_agrees (agrees : Agrees path place asked s l) :
    Agrees path place asked (s.act path asked (.drops i)).1
      (l.note (.drops i) (s.act path asked (.drops i)).2) := by
  refine ⟨?_, ?_, ?_, agrees.sound⟩
  · rcases agrees.disk with ⟨home, rfl⟩ | stored
    · exact .inl ⟨home, rfl⟩
    · exact .inr stored
  · intro c member
    exact agrees.fits c (List.mem_of_mem_eraseIdx member)
  · show (s.handles.eraseIdx i).map _ = l.queues.eraseIdx i
    rw [← agrees.queues, List.eraseIdx_map]

/-- **Every action keeps the session as the ledger says.** -/
theorem act_agrees (agrees : Agrees path place asked s l) {a : Action}
    (legible : a.Legible asked.dimension)
    (undone : (s.act path asked a).2 = false → a.CutsBack) :
    Agrees path place asked (s.act path asked a).1 (l.note a (s.act path asked a).2) := by
  cases a with
  | opens => exact opens_agrees agrees
  | inserts i id v => exact inserts_agrees agrees legible
  | flushes i device => exact flushes_agrees agrees undone
  | drops i => exact drops_agrees agrees

/-! ## Histories -/

theorem run_agrees {actions : List Action} (agrees : Agrees path place asked s l)
    (legible : ∀ a ∈ actions, a.Legible asked.dimension) (undone : s.Undoes path asked actions) :
    Agrees path place asked (s.run path asked l actions).1 (s.run path asked l actions).2 := by
  induction actions generalizing s l with
  | nil => exact agrees
  | cons a actions ih =>
      obtain ⟨legibleFirst, legibleLater⟩ := List.forall_mem_cons.1 legible
      obtain ⟨undoneFirst, undoneLater⟩ := undone
      exact ih (act_agrees agrees legibleFirst undoneFirst) legibleLater undoneLater

/-- **The log after any history** in which flushes that fail are undone.  From an empty
folder on, the log is that of the records that were flushed, one a line in the order of the
flushes; the open collections have pending what was accepted since; and opening the
collection succeeds, with nothing pending, and puts under each number the last record
flushed for it. -/
theorem run_log {disk : Disk} (home : Home disk path place []) {actions : List Action}
    (legible : ∀ a ∈ actions, a.Legible asked.dimension)
    (undone : Undoes path asked { disk } actions)
    (ran : run path asked { disk } {} actions = (s, l)) :
    (∃ f text, Home s.disk path place f ∧ f.IsFile logName ∧
      f.content logName = Log.bytes l.flushed ∧
      (f.content logName).text? = some text ∧ Text.lines text = l.flushed.map Record.line) ∧
    s.handles.map Collection.pending = l.queues ∧
    ∃ after c, openAt path asked s.disk = (after, .ok c) ∧ c.pending = [] ∧
      c.index.metric = asked.metric ∧ c.index.dimension = asked.dimension ∧ c.index.Ordered ∧
      ∀ id, c.index.get? id = Entries.get? id (l.flushed.map Record.entry).reverse := by
  have agrees := run_agrees (agrees_start home asked) legible undone
  rw [ran] at agrees
  refine ⟨?_, agrees.queues, ?_⟩
  · have read : (Log.bytes l.flushed).text? = some (Log.text l.flushed) := by
      rw [Log.bytes_eq, Bytes.text?_ofText]
    have lines := Log.lines_text fun r member => (agrees.sound r member).readable
    rcases agrees.disk with ⟨home, rfl⟩ | ⟨f, home, holds⟩
    · exact ⟨[], [], home, Folder.isFile_of_none rfl, rfl, rfl, rfl⟩
    · exact ⟨f, _, home, holds.isFile, holds.log, holds.log ▸ read, lines⟩
  · obtain ⟨after, opened, -⟩ := agrees.opens
    refine ⟨after, _, opened, rfl, rfl, rfl, Index.overlay_ordered (fresh_ordered asked) _, ?_⟩
    intro id
    rw [Index.get?_overlay]
    exact Option.or_none

/-! ### Two that are open at once -/

/-- A disk with an empty folder. -/
def sampleDisk : Disk := { root := [("c", .folder [])] }

/-- Both write under seven, the second is flushed first, an embedding is refused, a
flush fails inside of a line and is repeated, and one is dropped with a record pending. -/
def sampleActions : List Action :=
  [.opens, .inserts 0 7 [.ofInt 1], .opens, .inserts 1 7 [.ofInt 2], .inserts 1 8 [.nan],
    .flushes 1 .reliable, .inserts 0 9 [.ofInt 1], .flushes 0 (.limited 40), .flushes 0 .reliable,
    .inserts 1 9 [.ofInt 2], .drops 1]

theorem run_log_sample :
    ∃ s l f after c,
      run "c" ⟨1, .euclidean⟩ { disk := sampleDisk } {} sampleActions = (s, l) ∧
      Home s.disk "c" ["c"] f ∧
      f.content logName = Log.bytes [⟨7, [.ofInt 2]⟩, ⟨7, [.ofInt 1]⟩, ⟨9, [.ofInt 1]⟩] ∧
      s.handles.map Collection.pending = [[]] ∧
      openAt "c" ⟨1, .euclidean⟩ s.disk = (after, .ok c) ∧ c.pending = [] ∧
      c.index.get? 7 = some [.ofInt 1] ∧ c.index.get? 8 = none ∧
      c.index.get? 9 = some [.ofInt 1] := by
  have home : Home sampleDisk "c" ["c"] [] := ⟨rfl, .inr (by decide), by decide⟩
  have legible : ∀ a ∈ sampleActions, a.Legible 1 := by
    have one : (Binary.ofInt 1 : Binary32).Legible := by decide +kernel
    have two : (Binary.ofInt 2 : Binary32).Legible := by decide +kernel
    have refused : ¬ Embedding.Valid 1 [.nan] := fun valid => by
      cases valid.finite .nan (by simp)
    simp [sampleActions, Action.Legible, one, two, refused]
  have cuts : ∀ a ∈ sampleActions, a.CutsBack := by
    simp [sampleActions, Action.CutsBack, Device.reliable, Device.limited]
  have flushed : (run "c" ⟨1, .euclidean⟩ { disk := sampleDisk } {} sampleActions).2.flushed =
      [⟨7, [.ofInt 2]⟩, ⟨7, [.ofInt 1]⟩, ⟨9, [.ofInt 1]⟩] := by decide +kernel
  have queues : (run "c" ⟨1, .euclidean⟩ { disk := sampleDisk } {} sampleActions).2.queues =
      [[]] := by decide +kernel
  cases ran : run "c" ⟨1, .euclidean⟩ { disk := sampleDisk } {} sampleActions with
  | mk s l =>
      rw [ran] at flushed queues
      obtain ⟨⟨f, -, there, -, content, -⟩, pending, after, c, opened, nothing, -, -, -, found⟩ :=
        run_log home legible (undoes_of_cutsBack cuts) ran
      dsimp only at flushed queues
      rw [flushed] at content found
      refine ⟨s, l, f, after, c, rfl, there, content, pending.trans queues, opened, nothing, ?_⟩
      rw [found, found, found]
      decide

end Session

end Collection

end Retrieval
