/-
# Retrieval.Proofs.Collection.Place -- a collection at a path of a disk

`Collection.Home` says that a path leads to a folder in which the files of a
collection can be named, and `Collection.StoredAt` that this folder holds a
collection with these bytes in its log.  Opening and flushing find the folder, work
inside of it and put it back (`openAt_of_home`, `flushAt_of_home`); the path leads
there afterwards as before (`Home.put`).  So what is known of the folder carries over
to the disk: `openAt_of_whole`, `openAt_of_torn`, `openAt_of_unreadable`,
`openAt_empty`, and for flushes `flushAt_of_ok` and `flushAt_of_error`.

Wherever a collection is and whatever its device does, a flush is all or nothing, but
for a fragment that cannot be cut off (`flushAt_settles`).  What the log holds is
`Collection.logged`; a log that is not there holds nothing.
-/
import Retrieval.Proofs.Collection.Folder

namespace Retrieval

set_option autoImplicit false

namespace Collection

variable {path : String} {place : List String} {asked : Header} {content : Bytes}
variable {disk after : Disk} {f g : Folder}

/-! ## Where a collection is -/

/-- The path leads to the folder, and the files of a collection can be named in it. -/
structure Home (disk : Disk) (path : String) (place : List String) (f : Folder) : Prop where
  leads : disk.folder path = .ok (place, f)
  sound : path = "" ∨ Path.fault? path = none
  roomy : isCramped path = false

/-- The path leads there also after the folder was changed. -/
theorem Home.put (home : Home disk path place f) (kept : f.Keeps g) :
    Home (disk.put place g) path place g :=
  ⟨Disk.folder_put home.leads kept, home.sound, home.roomy⟩

/-- At the path is a collection made for the header, with these bytes in its log. -/
def StoredAt (path : String) (place : List String) (asked : Header) (content : Bytes)
    (disk : Disk) : Prop :=
  ∃ f, Home disk path place f ∧ Holds f asked content

/-- The log of a collection can be written where the collection is. -/
theorem Home.withLog (home : Home disk path place f) (holds : Holds f asked content)
    (bytes : Bytes) : StoredAt path place asked bytes (disk.put place (withLog f bytes)) :=
  ⟨_, home.put (keeps_withLog holds.isFile bytes), holds.withLog bytes⟩

/-- A disk with the folder of a collection that has these bytes in its log. -/
def shelf (asked : Header) (content : Bytes) : Disk :=
  { root := [("c", .folder [(headerName, .file asked.bytes), (logName, .file content)])] }

theorem shelf_storedAt (asked : Header) (content : Bytes) :
    StoredAt "c" ["c"] asked content (shelf asked content) :=
  ⟨_, ⟨rfl, .inr (by decide), by decide⟩, rfl, Folder.isFile_of_file rfl,
    Folder.content_of_file rfl⟩

/-! ## Opening -/

theorem openAt_of_home (home : Home disk path place f) (asked : Header) :
    openAt path asked disk =
      (disk.put place (openIn path asked f).1, (openIn path asked f).2) := by
  rw [openAt, Disk.makePath_of_folder home.leads home.sound]
  dsimp only
  rw [home.leads]
  dsimp only
  rw [home.roomy]
  rfl

/-- A whole log is replayed and stays as it is. -/
theorem openAt_of_whole {text : List Char} {index : Index}
    (stored : StoredAt path place asked (Bytes.ofText text) disk)
    (replayed : Log.replay (fresh asked) text = .ok (index, none)) :
    ∃ after, openAt path asked disk = (after, .ok { path, index }) ∧
      StoredAt path place asked (Bytes.ofText text) after := by
  obtain ⟨f, home, holds⟩ := stored
  refine ⟨disk.put place f, ?_, f, home.put (Folder.Keeps.refl f), holds⟩
  rw [openAt_of_home home, openIn_of_whole holds replayed]

/-- A torn log is replayed up to its last line, and that is cut off. -/
theorem openAt_of_torn {text kept : List Char} {index : Index}
    (stored : StoredAt path place asked (Bytes.ofText text) disk)
    (replayed : Log.replay (fresh asked) text = .ok (index, some kept)) :
    ∃ after, openAt path asked disk = (after, .ok { path, index }) ∧
      StoredAt path place asked (Bytes.ofText kept) after := by
  obtain ⟨f, home, holds⟩ := stored
  refine ⟨disk.put place (withLog f (Bytes.ofText kept)), ?_, home.withLog holds _⟩
  rw [openAt_of_home home, openIn_of_torn holds replayed]

theorem openAt_of_unreadable {text : List Char} {line : Nat}
    (stored : StoredAt path place asked (Bytes.ofText text) disk)
    (replayed : Log.replay (fresh asked) text = .error (.unreadable line)) :
    (openAt path asked disk).2 = .error (unreadableLine path line) := by
  obtain ⟨f, home, holds⟩ := stored
  rw [openAt_of_home home, openIn_of_unreadable holds replayed]

/-- A collection is made in an empty folder. -/
theorem openAt_empty (home : Home disk path place []) (asked : Header) :
    ∃ after, openAt path asked disk = (after, .ok { path, index := fresh asked }) ∧
      StoredAt path place asked [] after := by
  obtain ⟨g, -, opened, holds, -, kept⟩ := openIn_unmade unmade_empty path asked
  refine ⟨disk.put place g, ?_, g, home.put kept, holds⟩
  rw [openAt_of_home home, opened]

theorem sound_of_makePath {made : Disk} (makes : disk.makePath path = (made, none)) :
    path = "" ∨ Path.fault? path = none := by
  cases cause : Path.fault? path with
  | none => exact .inr rfl
  | some e =>
      by_cases empty : path.isEmpty = true
      · exact .inl (String.isEmpty_iff.1 empty)
      · rw [Disk.makePath, if_neg empty, cause] at makes
        cases makes

/-- Opening makes the folders on the way first. -/
theorem openAt_of_makePath {made : Disk} (makes : disk.makePath path = (made, none))
    (leads : made.folder path = .ok (place, f)) (asked : Header) :
    openAt path asked disk = openAt path asked made := by
  rw [openAt, openAt, makes, Disk.makePath_of_folder leads (sound_of_makePath makes)]

/-- How a collection comes to be open: in a folder in which its files can be named, or
found in one in which its log cannot. -/
inductive Opens (path : String) (asked : Header) (disk : Disk) : Disk → Collection → Prop
  | inside {made : Disk} {place : List String} {f g : Folder} {c : Collection}
      (makes : disk.makePath path = (made, none)) (home : Home made path place f)
      (opened : openIn path asked f = (g, .ok c)) : Opens path asked disk (made.put place g) c
  | cramped {made : Disk} {place : List String} {f : Folder} {c : Collection}
      (makes : disk.makePath path = (made, none)) (leads : made.folder path = .ok (place, f))
      (cramped : isCramped path = true) (found : openCramped path asked f = .ok c) :
      Opens path asked disk made c

theorem opens_of_openAt {c : Collection} (opened : openAt path asked disk = (after, .ok c)) :
    Opens path asked disk after c := by
  unfold openAt at opened
  cases makes : disk.makePath path with
  | mk made failure =>
      rw [makes] at opened
      cases failure with
      | some e => cases opened
      | none =>
          dsimp only at opened
          cases leads : made.folder path with
          | error e =>
              rw [leads] at opened
              cases opened
          | ok reached =>
              obtain ⟨place, f⟩ := reached
              rw [leads] at opened
              dsimp only at opened
              cases cramped : isCramped path with
              | true =>
                  rw [cramped, if_pos rfl] at opened
                  obtain ⟨rfl, found⟩ := Prod.mk.inj opened
                  exact .cramped makes leads cramped found
              | false =>
                  rw [cramped] at opened
                  cases inside : openIn path asked f with
                  | mk g result =>
                      rw [inside] at opened
                      cases opened
                      exact .inside makes ⟨leads, sound_of_makePath makes, cramped⟩ inside

/-- **A fresh folder gives a collection without records,** whether it is made on the way
or was there and empty, if it opens at all. -/
theorem openAt_fresh {made : Disk} {c : Collection}
    (makes : disk.makePath path = (made, none)) (leads : made.folder path = .ok (place, []))
    (opened : openAt path asked disk = (after, .ok c)) :
    c = { path, index := fresh asked } ∧ StoredAt path place asked [] after := by
  cases opens_of_openAt opened with
  | inside makes' home _ =>
      cases makes.symm.trans makes'
      cases leads.symm.trans home.leads
      obtain ⟨last, reached, stored⟩ := openAt_empty home asked
      rw [openAt_of_makePath makes leads, reached] at opened
      cases opened
      exact ⟨rfl, stored⟩
  | cramped makes' leads' _ found =>
      cases makes.symm.trans makes'
      cases leads.symm.trans leads'
      rw [openCramped, if_pos (by simp [Folder.has])] at found
      cases found

/-! ## Inserting -/

variable {c c' : Collection}

theorem insert_of_valid {v : Embedding} (id : DocumentId)
    (valid : v.fault? c.index.dimension = none) :
    c.insert id v =
      .ok { c with index := c.index.overlay [(id, v)], pending := c.pending ++ [⟨id, v⟩] } := by
  rw [insert, Index.insert_of_valid id valid]

theorem insert_of_fault {v : Embedding} {fault : Embedding.Fault} (id : DocumentId)
    (refused : v.fault? c.index.dimension = some fault) : c.insert id v = .error fault := by
  rw [insert, Index.insert_of_fault id refused]

/-! ## Flushing -/

variable {device : Device}

theorem flushAt_of_nil (nothing : c.pending = []) (device : Device) (disk : Disk) :
    c.flushAt device disk = (disk, c, none) := by
  rw [flushAt, nothing]
  rfl

/-- A flush works in the folder that the path leads to, and puts it back. -/
theorem flushAt_of_folder (leads : disk.folder c.path = .ok (place, f))
    (roomy : isCramped c.path = false) (some : c.pending ≠ []) (device : Device) :
    c.flushAt device disk =
      (disk.put place (c.flushIn device f).1, (c.flushIn device f).2) := by
  have pending : ¬ c.pending.isEmpty = true := fun empty => some (List.isEmpty_iff.1 empty)
  rw [flushAt, if_neg pending, leads]
  dsimp only
  rw [roomy]
  rfl

theorem flushAt_of_home (home : Home disk c.path place f) (some : c.pending ≠ [])
    (device : Device) :
    c.flushAt device disk =
      (disk.put place (c.flushIn device f).1, (c.flushIn device f).2) :=
  flushAt_of_folder home.leads home.roomy some device

/-- A flush that fails early has changed nothing. -/
theorem Settles.early (c : Collection) (device : Device) (bytes : Bytes) (e : IndexError) :
    Settles c device bytes bytes c (some e) :=
  .undone e List.prefix_rfl fun _ => rfl

/-- With nothing pending a flush has nothing to do. -/
theorem Settles.idle (nothing : c.pending = []) (device : Device) (bytes : Bytes) :
    Settles c device bytes bytes c none := by
  have settled : Settles c device bytes bytes { c with pending := [] } none :=
    .written (by simp [nothing, Log.bytes])
  rwa [show { c with pending := [] } = c by rw [← nothing]] at settled

/-- A flush onto a stored collection writes nothing but its log, completely or not at all. -/
theorem flushAt_stored (samePath : c.path = path) (stored : StoredAt path place asked content disk)
    (device : Device) :
    ∃ bytes, StoredAt path place asked bytes (c.flushAt device disk).1 ∧
      Settles c device content bytes (c.flushAt device disk).2.1
        (c.flushAt device disk).2.2 := by
  subst samePath
  by_cases nothing : c.pending = []
  · rw [flushAt_of_nil nothing]
    exact ⟨content, stored, .idle nothing device content⟩
  · obtain ⟨f, home, holds⟩ := stored
    obtain ⟨logOnly, settled⟩ := flushIn_settles c device f
    rw [flushAt_of_home home nothing]
    rw [holds.log] at settled
    exact ⟨_, ⟨_, home.put logOnly.keeps, logOnly.holds holds⟩, settled⟩

/-- **A flush that succeeds adds the pending records to the log,** and nothing else. -/
theorem flushAt_of_ok (samePath : c.path = path)
    (stored : StoredAt path place asked content disk)
    (done : c.flushAt device disk = (after, c', none)) :
    StoredAt path place asked (content ++ Log.bytes c.pending) after ∧
      c' = { c with pending := [] } := by
  obtain ⟨bytes, there, settled⟩ := flushAt_stored samePath stored device
  rw [done] at there settled
  cases settled with
  | written grown => exact ⟨grown ▸ there, rfl⟩

/-- **A flush that fails leaves the log and the pending records as they were,** when the log
can be cut back. -/
theorem flushAt_of_error {e : IndexError} (samePath : c.path = path)
    (stored : StoredAt path place asked content disk) (cuts : device.cut = none)
    (done : c.flushAt device disk = (after, c', some e)) :
    StoredAt path place asked content after ∧ c' = c := by
  obtain ⟨bytes, there, settled⟩ := flushAt_stored samePath stored device
  rw [done] at there settled
  cases settled with
  | undone _ _ same => exact ⟨same cuts ▸ there, rfl⟩

/-! ### On every disk -/

/-- The bytes of the log at a path, none where there is no log. -/
def logged (path : String) (disk : Disk) : Bytes :=
  match disk.folder path with
  | .error _ => []
  | .ok (_, f) => f.content logName

theorem logged_of_folder (leads : disk.folder path = .ok (place, f)) :
    logged path disk = f.content logName := by
  rw [logged, leads]

/-- The log at the path is that of the folder that was put there. -/
theorem logged_put (leads : disk.folder path = .ok (place, f)) (kept : f.Keeps g) :
    logged path (disk.put place g) = g.content logName :=
  logged_of_folder (Disk.folder_put leads kept)

/-- **A flush is all or nothing,** on every disk and every device. -/
theorem flushAt_settles (c : Collection) (device : Device) (disk : Disk) :
    Settles c device (logged c.path disk) (logged c.path (c.flushAt device disk).1)
      (c.flushAt device disk).2.1 (c.flushAt device disk).2.2 := by
  by_cases nothing : c.pending = []
  · rw [flushAt_of_nil nothing]
    exact .idle nothing device _
  · have pending : ¬ c.pending.isEmpty = true := fun empty => nothing (List.isEmpty_iff.1 empty)
    cases leads : disk.folder c.path with
    | error e =>
        rw [flushAt, if_neg pending, leads]
        exact .early c device _ _
    | ok found =>
        obtain ⟨place, f⟩ := found
        cases cramped : isCramped c.path with
        | true =>
            rw [flushAt, if_neg pending, leads]
            dsimp only
            rw [cramped]
            exact .early c device _ _
        | false =>
            obtain ⟨logOnly, settled⟩ := flushIn_settles c device f
            rw [flushAt_of_folder leads cramped nothing]
            dsimp only
            rw [logged_of_folder leads, logged_put leads logOnly.keeps]
            exact settled

/-- A flush that succeeds leaves nothing pending, wherever the collection is. -/
theorem flushAt_clears (done : c.flushAt device disk = (after, c', none)) :
    c' = { c with pending := [] } := by
  have settled := flushAt_settles c device disk
  rw [done] at settled
  cases settled
  rfl

theorem flushAt_index (c : Collection) (device : Device) (disk : Disk) :
    (c.flushAt device disk).2.1.index = c.index := by
  have settled := flushAt_settles c device disk
  generalize c.flushAt device disk = flushed at settled ⊢
  obtain ⟨after, c', failure⟩ := flushed
  cases settled <;> rfl

/-- A flush does not fail when the log can be written and the device takes something of
every write. -/
theorem flushAt_succeeds (obliging : device.Obliging) (leads : disk.folder c.path = .ok (place, f))
    (isFile : f.IsFile logName) (roomy : isCramped c.path = false) :
    (c.flushAt device disk).2.2 = none := by
  by_cases nothing : c.pending = []
  · rw [flushAt_of_nil nothing]
  · rw [flushAt_of_folder leads roomy nothing]
    exact flushIn_obliging obliging isFile c

/-- On a device that does not fail a flush succeeds. -/
theorem flushAt_obliging (obliging : device.Obliging) (samePath : c.path = path)
    (stored : StoredAt path place asked content disk) :
    ∃ after c', c.flushAt device disk = (after, c', none) := by
  subst samePath
  obtain ⟨f, home, holds⟩ := stored
  have succeeds := flushAt_succeeds obliging home.leads holds.isFile home.roomy
  generalize c.flushAt device disk = flushed at succeeds ⊢
  obtain ⟨after, c', failure⟩ := flushed
  cases succeeds
  exact ⟨after, c', rfl⟩

end Collection

end Retrieval
