/-
# Retrieval.Proofs.Collection.Folder -- opening and flushing inside one folder

`Collection.Holds` says that a folder holds a collection: a header, and a log with
these bytes, which is missing only when there are none.  Opening such a folder comes
down to replaying the bytes (`openIn_of_whole`, `openIn_of_torn`,
`openIn_of_unreadable`).  A folder may also have neither header nor log (`Unmade`):
opening it makes it hold a collection with nothing in its log (`openIn_unmade`).
Flushing adds the lines of the pending records to the log, or fails (`Settles`,
`flushIn_settles`); the log is then as it was if it can be cut back.

All of them touch the files of the collection only, so the folder keeps what is
below it (`keeps_withLog`, `LogOnly.keeps`).
-/
import Retrieval.Proofs.Collection.Header
import Retrieval.Proofs.Collection.Log
import Retrieval.Proofs.Disk.Device
import Retrieval.Proofs.Disk.Lookup

namespace Retrieval

set_option autoImplicit false

namespace Collection

variable {path : String} {asked : Header} {content : Bytes} {f g : Folder}

/-- The folder holds a collection made for the header, with these bytes in its log. -/
structure Holds (f : Folder) (asked : Header) (content : Bytes) : Prop where
  header : Entries.get? headerName f = some (.file asked.bytes)
  isFile : f.IsFile logName
  log : f.content logName = content

/-- The index that a replay starts from. -/
def fresh (asked : Header) : Index := { metric := asked.metric, dimension := asked.dimension }

theorem fresh_ordered (asked : Header) : (fresh asked).Ordered := Entries.ordered_nil

/-! ## The log's file -/

/-- The folder with these bytes in the log. -/
def withLog (f : Folder) (content : Bytes) : Folder := Entries.insert logName (.file content) f

theorem get?_withLog (f : Folder) (bytes : Bytes) :
    Entries.get? logName (withLog f bytes) = some (.file bytes) := by
  rw [withLog, Entries.get?_insert, if_pos rfl]

theorem content_withLog (f : Folder) (bytes : Bytes) :
    (withLog f bytes).content logName = bytes :=
  Folder.content_of_file (get?_withLog f bytes)

/-- What is below a folder stays when its log is written. -/
theorem keeps_withLog (isFile : f.IsFile logName) (bytes : Bytes) : f.Keeps (withLog f bytes) := by
  apply Folder.keeps_of_get?
  intro name below found
  rw [withLog, Entries.get?_insert]
  split
  · rename_i same
    rw [same] at found
    exact absurd found (isFile.not_folder below)
  · exact found

/-- Nothing but the log has changed. -/
inductive LogOnly (f : Folder) : Folder → Prop
  | same : LogOnly f f
  | written (isFile : f.IsFile logName) (content : Bytes) : LogOnly f (withLog f content)

namespace LogOnly

theorem keeps (logOnly : LogOnly f g) : f.Keeps g := by
  cases logOnly with
  | same => exact Folder.Keeps.refl f
  | written isFile content => exact keeps_withLog isFile content

theorem header (logOnly : LogOnly f g) :
    Entries.get? headerName g = Entries.get? headerName f := by
  cases logOnly with
  | same => rfl
  | written isFile content =>
      rw [withLog, Entries.get?_insert, if_neg (by decide)]

theorem holds (logOnly : LogOnly f g) (holds : Holds f asked content) :
    Holds g asked (g.content logName) := by
  refine ⟨logOnly.header.trans holds.header, ?_, rfl⟩
  cases logOnly with
  | same => exact holds.isFile
  | written _ bytes => exact Folder.isFile_of_file (get?_withLog f bytes)

end LogOnly

theorem Holds.withLog (holds : Holds f asked content) (bytes : Bytes) :
    Holds (withLog f bytes) asked bytes := by
  have written := (LogOnly.written holds.isFile bytes).holds holds
  rwa [content_withLog] at written

/-! ## The header -/

/-- What can be read as text is there. -/
theorem exists_file_of_readText {name : String} {text : List Char}
    (read : f.readText name = .ok text) :
    ∃ bytes, Entries.get? name f = some (.file bytes) ∧ bytes.text? = some text := by
  cases found : Entries.get? name f with
  | none => simp [Folder.readText, Folder.read, found, bind, Except.bind] at read
  | some node =>
      cases node with
      | locked _ | folder _ =>
          simp [Folder.readText, Folder.read, found, bind, Except.bind] at read
      | file bytes =>
          refine ⟨bytes, rfl, ?_⟩
          cases decoded : bytes.text? with
          | none => simp [Folder.readText, Folder.read, found, decoded, bind, Except.bind] at read
          | some _ =>
              simp only [Folder.readText, Folder.read, found, decoded, bind, Except.bind,
                Except.ok.injEq] at read
              rw [read]

theorem has_of_readText {name : String} {text : List Char} (read : f.readText name = .ok text) :
    f.has name = true := by
  obtain ⟨bytes, found, -⟩ := exists_file_of_readText read
  exact Folder.has_eq_true_iff.2 ⟨_, found⟩

theorem isFile_of_readText {name : String} {text : List Char}
    (read : f.readText name = .ok text) : f.IsFile name := by
  obtain ⟨bytes, found, -⟩ := exists_file_of_readText read
  exact Folder.isFile_of_file found

theorem has_of_readHeader (read : readHeader path f = .ok asked) : f.has headerName = true := by
  cases text : f.readText headerName with
  | error e => simp [readHeader, text] at read
  | ok _ => exact has_of_readText text

/-- A header that can be read is checked, and the folder stays as it is. -/
theorem settleHeader_of_readHeader (read : readHeader path f = .ok asked) (other : Header) :
    settleHeader path other f =
      match checkHeader path asked other with
      | .error e => (f, some e)
      | .ok () => (f, none) := by
  rw [settleHeader, if_pos (has_of_readHeader read)]
  cases checked : checkHeader path asked other <;> simp only [read, checked]

/-- A header that is there is checked, and the folder stays as it is. -/
theorem settleHeader_of_header (header : Entries.get? headerName f = some (.file asked.bytes))
    (path : String) (other : Header) :
    settleHeader path other f =
      match checkHeader path asked other with
      | .error e => (f, some e)
      | .ok () => (f, none) :=
  settleHeader_of_readHeader (readHeader_bytes header path) other

theorem settleHeader_of_holds (holds : Holds f asked content) (path : String) :
    settleHeader path asked f = (f, none) := by
  rw [settleHeader_of_header holds.header, (checkHeader_eq_ok_iff path asked asked).2 rfl]

/-- The folder has neither header nor log, and the header can be written in it. -/
structure Unmade (f : Folder) : Prop where
  noHeader : Entries.get? headerName f = none
  noLog : Entries.get? logName f = none
  isFile : f.IsFile temporaryName

theorem unmade_empty : Unmade [] := ⟨rfl, rfl, Folder.isFile_of_none rfl⟩

/-- The header has taken the place of its temporary file, and nothing else has changed. -/
def Headed (asked : Header) (f g : Folder) : Prop :=
  ∀ name, Entries.get? name g =
    if name = headerName then some (.file asked.bytes)
    else if name = temporaryName then none
    else Entries.get? name f

/-- A folder keeps what is below it when only the header and its temporary file change. -/
theorem keeps_of_headless (noHeader : Entries.get? headerName f = none)
    (isFile : f.IsFile temporaryName)
    (same : ∀ name, name ≠ headerName → name ≠ temporaryName →
      Entries.get? name g = Entries.get? name f) : f.Keeps g := by
  apply Folder.keeps_of_get?
  intro name below found
  have notHeader : name ≠ headerName := by
    rintro rfl
    rw [noHeader] at found
    cases found
  have notTemporary : name ≠ temporaryName := by
    rintro rfl
    exact isFile.not_folder below found
  rw [same name notHeader notTemporary, found]

theorem Headed.keeps (headed : Headed asked f g) (noHeader : Entries.get? headerName f = none)
    (isFile : f.IsFile temporaryName) : f.Keeps g := by
  refine keeps_of_headless noHeader isFile fun name notHeader notTemporary => ?_
  rw [headed, if_neg notHeader, if_neg notTemporary]

theorem Headed.log_eq (headed : Headed asked f g) :
    Entries.get? logName g = Entries.get? logName f := by
  rw [headed, if_neg (by decide), if_neg (by decide)]

/-- A folder that was unmade and has got a header holds a collection with nothing in its
log. -/
theorem Unmade.finished (unmade : Unmade f) (headed : Headed asked f g) :
    Holds g asked [] ∧ Entries.get? temporaryName g = none ∧ f.Keeps g := by
  have header : Entries.get? headerName g = some (.file asked.bytes) := by
    rw [headed, if_pos rfl]
  have swept : Entries.get? temporaryName g = none := by
    rw [headed, if_neg (by decide), if_pos rfl]
  have noLog : Entries.get? logName g = none := headed.log_eq.trans unmade.noLog
  exact ⟨⟨header, Folder.isFile_of_none noLog, Folder.content_of_none noLog⟩, swept,
    headed.keeps unmade.noHeader unmade.isFile⟩

/-- The header is written into a folder with neither header nor anything in its log. -/
theorem settleHeader_of_blank (noHeader : Entries.get? headerName f = none)
    (blank : holdsLog f = false) (isFile : f.IsFile temporaryName) (path : String)
    (asked : Header) :
    ∃ g, f.run (headerSteps asked) = (g, none) ∧ settleHeader path asked f = (g, none) ∧
      Headed asked f g := by
  obtain ⟨g, ran, headed⟩ := Folder.run_replacement (by decide : headerName ≠ temporaryName)
    isFile (Folder.isFile_of_none noHeader) asked.bytes
  have absent : f.has headerName = false := Folder.has_eq_false_iff.2 noHeader
  refine ⟨g, ran, ?_, headed⟩
  rw [settleHeader, absent, blank, headerSteps, ran]
  rfl

theorem settleHeader_unmade (unmade : Unmade f) (path : String) (asked : Header) :
    ∃ g, f.run (headerSteps asked) = (g, none) ∧ settleHeader path asked f = (g, none) ∧
      Holds g asked [] ∧ Entries.get? temporaryName g = none ∧ f.Keeps g := by
  have blank : holdsLog f = false := by rw [holdsLog, unmade.noLog]
  obtain ⟨g, ran, settled, headed⟩ :=
    settleHeader_of_blank unmade.noHeader blank unmade.isFile path asked
  exact ⟨g, ran, settled, unmade.finished headed⟩

/-! ## Opening -/

theorem ofText_injective {s t : List Char} (same : Bytes.ofText s = Bytes.ofText t) : s = t := by
  have read := congrArg Bytes.text? same
  simpa using read

/-- What is said of a line of the log that cannot be read. -/
def unreadableLine (path : String) (line : Nat) : IndexError :=
  .corrupt s!"{Path.join path logName} line {line}"

/-- Opening a folder whose header is the one that is asked for is replaying its log. -/
theorem openIn_of_readHeader (read : readHeader path f = .ok asked) :
    openIn path asked f =
      match replayLog path (fresh asked) f with
      | (g, .error e) => (g, .error e)
      | (g, .ok index) => (g, .ok { path, index }) := by
  rw [openIn, settleHeader_of_readHeader read, (checkHeader_eq_ok_iff path asked asked).2 rfl]
  rfl

theorem replayLog_of_none (absent : Entries.get? logName f = none) (path : String)
    (index : Index) : replayLog path index f = (f, .ok index) := by
  rw [replayLog, Folder.has_eq_false_iff.2 absent]
  rfl

/-- What a log that can be read as text is replayed to. -/
theorem replayLog_of_readText {text : List Char} (read : f.readText logName = .ok text)
    (path : String) (index : Index) :
    replayLog path index f =
      match Log.replay index text with
      | .error (.refused fault) => (f, .error (.fault fault))
      | .error (.unreadable line) => (f, .error (unreadableLine path line))
      | .ok (index, none) => (f, .ok index)
      | .ok (index, some kept) => (withLog f (Bytes.ofText kept), .ok index) := by
  rw [replayLog, if_pos (has_of_readText read), read]
  dsimp only
  cases Log.replay index text with
  | error fault => cases fault <;> rfl
  | ok replayed =>
      obtain ⟨after, cut⟩ := replayed
      cases cut <;> rfl

/-- **Opening a folder that holds a collection is replaying its log.** -/
theorem openIn_of_holds {text : List Char} (holds : Holds f asked (Bytes.ofText text))
    (path : String) :
    openIn path asked f =
      match Log.replay (fresh asked) text with
      | .error (.refused fault) => (f, .error (.fault fault))
      | .error (.unreadable line) => (f, .error (unreadableLine path line))
      | .ok (index, none) => (f, .ok { path, index })
      | .ok (index, some kept) => (withLog f (Bytes.ofText kept), .ok { path, index }) := by
  rw [openIn_of_readHeader (readHeader_bytes holds.header path)]
  cases found : Entries.get? logName f with
  | none =>
      have empty : text = [] :=
        ofText_injective (holds.log.symm.trans (Folder.content_of_none found))
      rw [replayLog_of_none found, empty]
      rfl
  | some node =>
      obtain ⟨bytes, rfl⟩ := holds.isFile node found
      have same : bytes = Bytes.ofText text :=
        (Folder.content_of_file found).symm.trans holds.log
      subst same
      rw [replayLog_of_readText (Folder.readText_ofText found)]
      cases Log.replay (fresh asked) text with
      | error fault => cases fault <;> rfl
      | ok replayed =>
          obtain ⟨index, cut⟩ := replayed
          cases cut <;> rfl

theorem openIn_of_whole {text : List Char} {index : Index}
    (holds : Holds f asked (Bytes.ofText text))
    (replayed : Log.replay (fresh asked) text = .ok (index, none)) (path : String) :
    openIn path asked f = (f, .ok { path, index }) := by
  rw [openIn_of_holds holds, replayed]

theorem openIn_of_torn {text kept : List Char} {index : Index}
    (holds : Holds f asked (Bytes.ofText text))
    (replayed : Log.replay (fresh asked) text = .ok (index, some kept)) (path : String) :
    openIn path asked f = (withLog f (Bytes.ofText kept), .ok { path, index }) := by
  rw [openIn_of_holds holds, replayed]

theorem openIn_of_unreadable {text : List Char} {line : Nat}
    (holds : Holds f asked (Bytes.ofText text))
    (replayed : Log.replay (fresh asked) text = .error (.unreadable line)) (path : String) :
    openIn path asked f = (f, .error (unreadableLine path line)) := by
  rw [openIn_of_holds holds, replayed]

/-- **Opening a folder without header and log makes a collection.** -/
theorem openIn_unmade (unmade : Unmade f) (path : String) (asked : Header) :
    ∃ g, f.run (headerSteps asked) = (g, none) ∧
      openIn path asked f = (g, .ok { path, index := fresh asked }) ∧
      Holds g asked [] ∧ Entries.get? temporaryName g = none ∧ f.Keeps g := by
  obtain ⟨g, ran, settled, holds, swept, kept⟩ := settleHeader_unmade unmade path asked
  refine ⟨g, ran, ?_, holds, swept, kept⟩
  have nothing : Holds g asked (Bytes.ofText []) := holds
  have opened := openIn_of_whole nothing rfl path
  rw [openIn, settleHeader_of_holds holds] at opened
  rw [openIn, settled]
  exact opened

/-! ## Flushing -/

/-- The pieces of the pending records are the bytes of their lines. -/
theorem pendingLines_joined (c : Collection) :
    Piece.joined (Piece.ofLines c.pendingLines) = Log.bytes c.pending := by
  have record (r : Record) :
      Piece.joined ((r.pieces.map Bytes.ofText).map (Piece.mk .inside) ++ [⟨.behind, [10]⟩]) =
        r.bytes := by
    have flat (texts : List (List Char)) :
        Piece.joined ((texts.map Bytes.ofText).map (Piece.mk .inside)) =
          Bytes.ofText texts.flatten := by
      induction texts with
      | nil => rfl
      | cons text texts ih =>
          rw [List.flatten_cons, Bytes.ofText_append, ← ih]
          rfl
    rw [Piece.joined, List.flatMap_append, ← Piece.joined, flat, r.pieces_flatten, Record.bytes,
      Record.line, Bytes.ofText_append]
    rfl
  rw [pendingLines]
  induction c.pending with
  | nil => rfl
  | cons r records ih =>
      rw [List.map_cons, Piece.ofLines, List.flatMap_cons, Piece.joined, List.flatMap_append,
        ← Piece.joined, ← Piece.joined, record, ← Piece.ofLines, ih]
      rfl

variable {c after : Collection} {device : Device}

/-- How a flush ends that finds the log with the first bytes and leaves it with the second.
When it fails and the log cannot be cut back, there may be a fragment behind them. -/
inductive Settles (c : Collection) (device : Device) (before after : Bytes) :
    Collection → Option IndexError → Prop
  | written (grown : after = before ++ Log.bytes c.pending) :
      Settles c device before after { c with pending := [] } none
  | undone (e : IndexError) (kept : before <+: after) (same : device.cut = none → after = before) :
      Settles c device before after c (some e)

/-- **A flush writes nothing but the log, and that completely or not at all.** -/
theorem flushIn_settles (c : Collection) (device : Device) (f : Folder) :
    LogOnly f (c.flushIn device f).1 ∧
      Settles c device (f.content logName) ((c.flushIn device f).1.content logName)
        (c.flushIn device f).2.1 (c.flushIn device f).2.2 := by
  have appending := Folder.appending_appendAll f device logName c.pendingLines
  rw [flushIn]
  generalize f.appendAll device logName c.pendingLines = result at appending ⊢
  obtain ⟨g, failure⟩ := result
  cases appending with
  | unopened e => exact ⟨.same, .undone _ List.prefix_rfl fun _ => rfl⟩
  | @opened isFile written failure settled =>
      cases failure with
      | none =>
          refine ⟨.written isFile written, .written ?_⟩
          rw [← withLog, content_withLog, Appender.settle_of_ok settled, pendingLines_joined]
      | some e =>
          have kept := Appender.settle_isPrefix device (f.content logName) c.pendingLines
          rw [settled] at kept
          refine ⟨.written isFile written, .undone _ ?_ fun cuts => ?_⟩
          · rw [← withLog, content_withLog]
            exact kept
          · rw [← withLog, content_withLog, Appender.settle_of_error cuts settled]

theorem flushIn_obliging (obliging : device.Obliging) (isFile : f.IsFile logName)
    (c : Collection) : (c.flushIn device f).2.2 = none := by
  have appended := Folder.appendAll_obliging obliging isFile c.pendingLines
  unfold flushIn
  split
  · rename_i failure
    rw [failure] at appended
    cases appended
  · rfl

end Collection

end Retrieval
