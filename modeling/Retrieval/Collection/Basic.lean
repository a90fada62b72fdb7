/-
# Retrieval.Collection.Basic -- an index that outlives the program

A collection is a folder with a header and a log, and in memory an index and the
records that are not in the log yet.  Opening checks the header against what is
asked for, or writes it in a folder without one, and replays the log.  Inserting
reaches memory only; flushing appends the pending records to the log, all of
them or none.

Everything here happens inside one folder.  `Collection.openAt` and
`Collection.flushAt` find that folder on a disk.
-/
import Retrieval.Collection.Header
import Retrieval.Collection.Log
import Retrieval.Disk.Device
import Retrieval.Disk.Lookup

namespace Retrieval

set_option autoImplicit false

/-- A collection that is open. -/
structure Collection where
  path : String
  index : Index
  pending : List Record := []

namespace Collection

/-! ## The files -/

def headerName : String := "meta.json"

/-- The name of the file by way of which the header is written. -/
def temporaryName : String := "meta.json.tmp"

def logName : String := "vectors.jsonl"

/-- Whether something is where the log belongs that is more than an empty file.  The
length of a locked file can be told all the same. -/
def holdsLog (f : Folder) : Bool :=
  match Entries.get? logName f with
  | none | some (.file []) | some (.locked []) => false
  | some _ => true

/-! ## Opening -/

def readHeader (path : String) (f : Folder) : Except IndexError Header :=
  match f.readText headerName with
  | .error e => .error (.file e)
  | .ok text =>
      match Header.read? text with
      | none => .error (.corrupt (Path.join path headerName))
      | some h => .ok h

/-- Whether a header agrees with what is asked for. -/
def checkHeader (path : String) (stored asked : Header) : Except IndexError Unit :=
  if stored.dimension ≠ asked.dimension then
    .error (.configMismatch
      s!"collection at {path} has dimension {stored.dimension}, requested {asked.dimension}")
  else if stored.metric ≠ asked.metric then
    .error (.configMismatch
      s!"collection at {path} uses metric {stored.metric.name}, requested {asked.metric.name}")
  else .ok ()

def headerSteps (h : Header) : List Folder.Step :=
  Folder.replacement temporaryName headerName h.bytes

/-- Check the header of a folder, or write it when there is neither header nor log. -/
def settleHeader (path : String) (asked : Header) (f : Folder) :
    Folder × Option IndexError :=
  if f.has headerName then
    match readHeader path f with
    | .error e => (f, some e)
    | .ok stored =>
        match checkHeader path stored asked with
        | .error e => (f, some e)
        | .ok () => (f, none)
  else if holdsLog f then
    (f, some (.corrupt s!"{path} holds vectors but {headerName} is missing"))
  else
    match f.run (headerSteps asked) with
    | (f, none) => (f, none)
    | (f, some e) => (f, some (.file e))

/-- Replay the log of a folder, if there is one, and cut off a torn last line. -/
def replayLog (path : String) (index : Index) (f : Folder) :
    Folder × Except IndexError Index :=
  if f.has logName then
    match f.readText logName with
    | .error e => (f, .error (.file e))
    | .ok text =>
        match Log.replay index text with
        | .error (.refused fault) => (f, .error (.fault fault))
        | .error (.unreadable line) =>
            (f, .error (.corrupt s!"{Path.join path logName} line {line}"))
        | .ok (index, none) => (f, .ok index)
        | .ok (index, some kept) =>
            (Entries.insert logName (.file (Bytes.ofText kept)) f, .ok index)
  else (f, .ok index)

/-- Open the collection in a folder, making it when there is none. -/
def openIn (path : String) (asked : Header) (f : Folder) :
    Folder × Except IndexError Collection :=
  match settleHeader path asked f with
  | (f, some e) => (f, .error e)
  | (f, none) =>
      match replayLog path { metric := asked.metric, dimension := asked.dimension } f with
      | (f, .error e) => (f, .error e)
      | (f, .ok index) => (f, .ok { path, index })

/-- Open the collection in a folder whose path is so long that neither the log nor the
file for a new header can be named in it, so only an old header can be found. -/
def openCramped (path : String) (asked : Header) (f : Folder) : Except IndexError Collection :=
  if Path.isTooLong (Path.join path headerName) || !f.has headerName then
    .error (.file .nameTooLong)
  else do
    checkHeader path (← readHeader path f) asked
    return { path, index := { metric := asked.metric, dimension := asked.dimension } }

/-- Whether the log cannot be named in the folder of a path. -/
def isCramped (path : String) : Bool := Path.isTooLong (Path.join path logName)

/-- Open the collection at a path, making the folders on the way. -/
def openAt (path : String) (asked : Header) (disk : Disk) :
    Disk × Except IndexError Collection :=
  match disk.makePath path with
  | (disk, some e) => (disk, .error (.file e))
  | (disk, none) =>
      match disk.folder path with
      | .error e => (disk, .error (.file e))
      | .ok (place, f) =>
          if isCramped path then (disk, openCramped path asked f)
          else
            let (f, opened) := openIn path asked f
            (disk.put place f, opened)

/-! ## Inserting and flushing -/

/-- Put an embedding under a number, and remember to log it. -/
def insert (c : Collection) (id : DocumentId) (v : Embedding) :
    Except Embedding.Fault Collection :=
  match c.index.insert id v with
  | .error f => .error f
  | .ok index => .ok { c with index, pending := c.pending ++ [⟨id, v⟩] }

/-- A failure inside of a record counts as one of encoding the record. -/
def ofAppendError (e : AppendError) : IndexError :=
  match e.site with
  | .inside => .unencodable e.cause.message
  | .behind => .file e.cause

/-- The pieces of the pending records, a line each. -/
def pendingLines (c : Collection) : List (List Bytes) :=
  c.pending.map fun r => r.pieces.map Bytes.ofText

/-- Append the pending records to the log in a folder. -/
def flushIn (c : Collection) (device : Device) (f : Folder) :
    Folder × Collection × Option IndexError :=
  match f.appendAll device logName c.pendingLines with
  | (f, some e) => (f, c, some (ofAppendError e))
  | (f, none) => (f, { c with pending := [] }, none)

/-- Append the pending records to the log on disk.  With nothing pending the
disk is not looked at. -/
def flushAt (c : Collection) (device : Device) (disk : Disk) :
    Disk × Collection × Option IndexError :=
  if c.pending.isEmpty then (disk, c, none)
  else
    match disk.folder c.path with
    | .error e => (disk, c, some (.file e))
    | .ok (place, f) =>
        if isCramped c.path then (disk, c, some (.file .nameTooLong))
        else
          let (f, c, failure) := c.flushIn device f
          (disk.put place f, c, failure)

end Collection

end Retrieval
