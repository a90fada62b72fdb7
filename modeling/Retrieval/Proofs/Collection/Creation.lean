/-
# Retrieval.Proofs.Collection.Creation -- making a collection may stop halfway

A collection is made in several operations: a folder after the other on the way of the
path, then the temporary file, its bytes one by one, and the renaming that makes it the
header.  `Collection.creationTrail` lists the disks between them, and a crash is to stop
at one of them (`Interrupted`).  `creationTrail_isTrail` says that none is left out.

Whatever a crash leaves is `Promising`: the folder of the path can be made, or is there,
and has neither header nor log, or has the whole header.  That is kept by a further crash
(`Promising.interrupted`), and opening finishes what is missing (`Promising.opens`).

From then on nothing but the log changes, whoever opens the collection or flushes to it
(`Use`), so the header passes the check of what it was made with and of nothing else.
-/
import Mathlib.Logic.Relation
import Retrieval.Proofs.Collection.Place
import Retrieval.Proofs.Disk.Trail

namespace Retrieval

set_option autoImplicit false

namespace Collection

variable {path : String} {place : List String} {asked other : Header} {message : String}
variable {disk made crashed after later : Disk} {f g : Folder}

/-! ## The disks on the way -/

/-- What happens to a disk completely or not at all: a folder is made, or a step is taken in
the folder at a place. -/
inductive Operation (disk : Disk) : Disk → Prop
  | folder {made : Disk} {start : List String} {steps : List Path.Step}
      (done : disk.makeFolder start steps = .ok made) : Operation disk made
  | step {place : List String} {f g : Folder} {s : Folder.Step}
      (here : disk.root.at? place = some (.folder f)) (done : f.step s = .ok g) :
      Operation disk (disk.put place g)

/-- The folders that writing the header passes through.  A folder with header or log is
left as it is. -/
def headerTrail (asked : Header) (f : Folder) : List Folder :=
  if f.has headerName || holdsLog f then [] else f.trail (headerSteps asked)

/-- The disks that making a collection passes through, from the disk as it is on. -/
def creationTrail (path : String) (asked : Header) (disk : Disk) : List Disk :=
  disk.pathTrail path ++
    match disk.makePath path with
    | (_, some _) => []
    | (made, none) =>
        match made.folder path with
        | .error _ => []
        | .ok (place, f) => (headerTrail asked f).map (made.put place)

/-- Making a collection has stopped at the second disk. -/
def Interrupted (path : String) (asked : Header) (disk crashed : Disk) : Prop :=
  crashed ∈ creationTrail path asked disk

/-- Steps in a folder are operations on its disk. -/
theorem trail_isTrail {steps : List Folder.Step} (here : disk.root.at? place = some (.folder f))
    (done : f.run steps = (g, none)) (nonempty : steps ≠ []) :
    IsTrail Operation disk (disk.put place g) (disk :: (f.trail steps).map (disk.put place)) := by
  induction steps generalizing disk f with
  | nil => exact absurd rfl nonempty
  | cons s rest ih =>
      cases taken : f.step s with
      | error e => simp [Folder.run, taken] at done
      | ok h =>
          have first : Operation disk (disk.put place h) := .step here taken
          rw [Folder.run_cons_of_ok taken] at done
          rw [Folder.trail, taken]
          by_cases last : rest = []
          · subst last
            cases done
            exact .pair first
          · -- the rest is done on the disk after the first step
            have there : (disk.put place h).root.at? place = some (.folder h) :=
              Folder.at?_put _ _ _
            have more := ih there done last
            simp only [funext (disk.put_put place h)] at more
            exact (IsTrail.pair first).append more

theorem headerTrail_of_unmade (unmade : Unmade f) (asked : Header) :
    headerTrail asked f = f.trail (headerSteps asked) := by
  have absent : f.has headerName = false := Folder.has_eq_false_iff.2 unmade.noHeader
  have blank : holdsLog f = false := by rw [holdsLog, unmade.noLog]
  rw [headerTrail, absent, blank]
  rfl

theorem headerTrail_of_holds {content : Bytes} (holds : Holds f asked content) :
    headerTrail asked f = [] := by
  have present : f.has headerName = true := Folder.has_eq_true_iff.2 ⟨_, holds.header⟩
  rw [headerTrail, present]
  rfl

theorem creationTrail_of_makePath (makes : disk.makePath path = (made, none))
    (leads : made.folder path = .ok (place, f)) (asked : Header) :
    creationTrail path asked disk =
      disk.pathTrail path ++ (headerTrail asked f).map (made.put place) := by
  rw [creationTrail, makes]
  dsimp only
  rw [leads]

/-- **Making a collection passes through these disks,** one operation after the other. -/
theorem creationTrail_isTrail (makes : disk.makePath path = (made, none))
    (home : Home made path place f) (unmade : Unmade f) (asked : Header) :
    IsTrail Operation disk (openAt path asked disk).1 (creationTrail path asked disk) := by
  obtain ⟨g, ran, opened, -⟩ := openIn_unmade unmade path asked
  have folders : IsTrail Operation disk (disk.makePath path).1 (disk.pathTrail path) := by
    apply (disk.pathTrail_isTrail path).mono
    rintro a b ⟨start, steps, done⟩
    exact .folder done
  have nonempty : headerSteps asked ≠ [] := by simp [headerSteps, Folder.replacement]
  have header := trail_isTrail (Disk.folderAt_eq_ok.1 home.leads).2 ran nonempty
  rw [makes] at folders
  rw [creationTrail_of_makePath makes home.leads, headerTrail_of_unmade unmade,
    openAt_of_makePath makes home.leads, openAt_of_home home, opened]
  exact folders.append header

/-! ## What a crash leaves -/

/-- The folder is on the way to a collection: nothing is made in it, or the header is there
and the temporary file gone. -/
inductive Nascent (asked : Header) (f : Folder) : Prop
  | unmade (unmade : Unmade f)
  | made (holds : Holds f asked []) (swept : Entries.get? temporaryName f = none)

/-- Wherever the header is interrupted, it is not there or it is there as a whole. -/
theorem Nascent.interrupted (nascent : Nascent asked f) (member : g ∈ headerTrail asked f) :
    Nascent asked g ∧ f.Keeps g := by
  cases nascent with
  | made holds swept =>
      rw [headerTrail_of_holds holds] at member
      cases member
  | unmade unmade =>
      rw [headerTrail_of_unmade unmade] at member
      obtain ⟨first, isPrefix, nonempty, ran⟩ := Folder.exists_run_of_mem_trail member
      rcases Folder.run_replacement_prefix (by decide : headerName ≠ temporaryName) unmade.isFile
        (Folder.isFile_of_none unmade.noHeader) isPrefix nonempty ran with ⟨written, left⟩ | left
      · refine ⟨.unmade ⟨?_, ?_, ?_⟩, keeps_of_headless unmade.noHeader unmade.isFile ?_⟩
        · rw [left, if_neg (by decide), unmade.noHeader]
        · rw [left, if_neg (by decide), unmade.noLog]
        · apply Folder.isFile_of_file
          rw [left, if_pos rfl]
        · intro name notHeader notTemporary
          rw [left, if_neg notTemporary]
      · obtain ⟨holds, swept, kept⟩ := unmade.finished left
        exact ⟨.made holds swept, kept⟩

/-- Opening such a folder makes what is missing. -/
theorem Nascent.opens (nascent : Nascent asked f) (path : String) :
    ∃ g, openIn path asked f = (g, .ok { path, index := fresh asked }) ∧ Holds g asked [] ∧
      Entries.get? temporaryName g = none ∧ f.Keeps g := by
  cases nascent with
  | unmade unmade =>
      obtain ⟨g, -, opened, holds, swept, kept⟩ := openIn_unmade unmade path asked
      exact ⟨g, opened, holds, swept, kept⟩
  | made holds swept =>
      have nothing : Holds f asked (Bytes.ofText []) := holds
      exact ⟨f, openIn_of_whole nothing rfl path, holds, swept, Folder.Keeps.refl f⟩

/-- The folder of the path can be made, or is there, and is on the way to a collection. -/
structure Promising (path : String) (place : List String) (asked : Header)
    (disk made : Disk) (f : Folder) : Prop where
  makes : disk.makePath path = (made, none)
  home : Home made path place f
  nascent : Nascent asked f

/-- A crash leaves what is as good as before. -/
theorem Promising.interrupted (promising : Promising path place asked disk made f)
    (crash : Interrupted path asked disk crashed) :
    ∃ made' f', Promising path place asked crashed made' f' := by
  obtain ⟨makes, home, nascent⟩ := promising
  rw [Interrupted, creationTrail_of_makePath makes home.leads] at crash
  rcases List.mem_append.1 crash with onTheWay | arrived
  · exact ⟨made, f, Disk.makePath_of_mem_trail makes onTheWay, home, nascent⟩
  · obtain ⟨g, member, rfl⟩ := List.mem_map.1 arrived
    obtain ⟨further, kept⟩ := nascent.interrupted member
    have home' := home.put kept
    exact ⟨_, g, Disk.makePath_of_folder home'.leads home'.sound, home', further⟩

/-- Any number of crashes leave what is as good as before. -/
theorem Promising.crashes (promising : Promising path place asked disk made f)
    (crashes : Relation.ReflTransGen (Interrupted path asked) disk crashed) :
    ∃ made' f', Promising path place asked crashed made' f' := by
  induction crashes with
  | refl => exact ⟨made, f, promising⟩
  | tail _ crash ih =>
      obtain ⟨made', f', still⟩ := ih
      exact still.interrupted crash

theorem Promising.opens (promising : Promising path place asked disk made f) :
    ∃ after g, openAt path asked disk = (after, .ok { path, index := fresh asked }) ∧
      Home after path place g ∧ Holds g asked [] ∧ Entries.get? temporaryName g = none := by
  obtain ⟨makes, home, nascent⟩ := promising
  obtain ⟨g, opened, holds, swept, kept⟩ := nascent.opens path
  refine ⟨made.put place g, g, ?_, home.put kept, holds, swept⟩
  rw [openAt_of_makePath makes home.leads, openAt_of_home home, opened]

/-! ## Afterwards -/

theorem replayLog_logOnly (path : String) (index : Index) (f : Folder) :
    LogOnly f (replayLog path index f).1 := by
  unfold replayLog
  split
  · split
    · exact .same
    · rename_i text readable
      split
      · exact .same
      · exact .same
      · exact .same
      · rename_i index kept replayed
        exact .written (isFile_of_readText readable) _
  · exact .same

/-- Opening a folder with a header changes nothing but the log. -/
theorem openIn_logOnly (header : Entries.get? headerName f = some (.file asked.bytes))
    (path : String) (other : Header) : LogOnly f (openIn path other f).1 := by
  rw [openIn, settleHeader_of_header header]
  cases checkHeader path asked other with
  | error e => exact .same
  | ok _ =>
      have replayed := replayLog_logOnly path
        { metric := other.metric, dimension := other.dimension } f
      dsimp only
      split
      · rename_i failed
        rwa [failed] at replayed
      · rename_i passed
        rwa [passed] at replayed

/-- At the path is the header of a collection. -/
def Labelled (path : String) (place : List String) (asked : Header) (disk : Disk) : Prop :=
  ∃ f, Home disk path place f ∧ Entries.get? headerName f = some (.file asked.bytes)

/-- What happens to a collection at a path once it is made: it is opened with any header, a
collection that was opened there is flushed, or a crash leaves any bytes in its log. -/
inductive Use (path : String) (disk : Disk) : Disk → Prop
  | opened (asked : Header) : Use path disk (openAt path asked disk).1
  | flushed {c : Collection} (samePath : c.path = path) (device : Device) :
      Use path disk (c.flushAt device disk).1
  | torn {place : List String} {f : Folder} (leads : disk.folder path = .ok (place, f))
      (isFile : f.IsFile logName) (content : Bytes) :
      Use path disk (disk.put place (withLog f content))

theorem Labelled.put (home : Home disk path place f)
    (header : Entries.get? headerName f = some (.file asked.bytes)) (logOnly : LogOnly f g) :
    Labelled path place asked (disk.put place g) :=
  ⟨g, home.put logOnly.keeps, logOnly.header.trans header⟩

/-- **Using a collection leaves its header as it is.** -/
theorem Labelled.use (labelled : Labelled path place asked disk) (use : Use path disk after) :
    Labelled path place asked after := by
  obtain ⟨f, home, header⟩ := labelled
  cases use with
  | opened other =>
      rw [openAt_of_home home]
      exact .put home header (openIn_logOnly header path other)
  | @flushed c samePath device =>
      subst samePath
      by_cases nothing : c.pending = []
      · rw [flushAt_of_nil nothing]
        exact ⟨f, home, header⟩
      · rw [flushAt_of_home home nothing]
        exact .put home header (flushIn_settles c device f).1
  | torn leads isFile content =>
      rw [home.leads] at leads
      cases leads
      exact .put home header (.written isFile content)

theorem Labelled.uses (labelled : Labelled path place asked disk)
    (uses : Relation.ReflTransGen (Use path) disk later) : Labelled path place asked later := by
  induction uses with
  | refl => exact labelled
  | tail _ use ih => exact ih.use use

/-! ## The check -/

/-- Replaying a log never finds a mismatch. -/
theorem replayLog_ne_mismatch (path : String) (index : Index) (f : Folder) (message : String) :
    (replayLog path index f).2 ≠ .error (.configMismatch message) := by
  unfold replayLog
  split
  · split
    · simp
    · split <;> simp
  · simp

/-- Opening with the header that is there passes the check. -/
theorem Labelled.passes (labelled : Labelled path place asked disk) :
    (∃ f, Home disk path place f ∧ settleHeader path asked f = (f, none)) ∧
      ∀ message, (openAt path asked disk).2 ≠ .error (.configMismatch message) := by
  obtain ⟨f, home, header⟩ := labelled
  have passed : settleHeader path asked f = (f, none) := by
    rw [settleHeader_of_header header, (checkHeader_eq_ok_iff path asked asked).2 rfl]
  refine ⟨⟨f, home, passed⟩, ?_⟩
  intro message
  have replayed := replayLog_ne_mismatch path (fresh asked) f message
  rw [openAt_of_home home, openIn, passed]
  dsimp only
  rw [← fresh]
  split
  · rename_i failed
    rw [failed] at replayed
    simpa using replayed
  · simp

/-- Opening with any other header is a mismatch. -/
theorem Labelled.mismatch (labelled : Labelled path place asked disk) (different : other ≠ asked) :
    ∃ message, (openAt path other disk).2 = .error (.configMismatch message) := by
  obtain ⟨f, home, header⟩ := labelled
  obtain ⟨message, refused⟩ := checkHeader_mismatch (Ne.symm different) path
  refine ⟨message, ?_⟩
  rw [openAt_of_home home, openIn, settleHeader_of_header header, refused]

/-! ## Making a collection, with crashes -/

/-- **Making a collection survives any number of crashes.**  The trail lists every disk that
making it passes through.  Wherever it stopped, and however often, opening again makes an
empty collection with the header that was asked for, and leaves no temporary file.  From
then on, whatever is done with the collection, opening it with the same header passes the
check and with any other is a mismatch.

The folder may be missing, or empty (`unmade_empty`), or hold other things, with a
temporary file of any content among them. -/
theorem creation_recovers (makes : disk.makePath path = (made, none))
    (leads : made.folder path = .ok (place, f)) (unmade : Unmade f)
    (roomy : isCramped path = false) (asked : Header) :
    IsTrail Operation disk (openAt path asked disk).1 (creationTrail path asked disk) ∧
    ∀ crashed, Relation.ReflTransGen (Interrupted path asked) disk crashed →
      ∃ after g, openAt path asked crashed = (after, .ok { path, index := fresh asked }) ∧
        Home after path place g ∧ readHeader path g = .ok asked ∧
        Entries.get? temporaryName g = none ∧
        ∀ later, Relation.ReflTransGen (Use path) after later →
          (∃ h, Home later path place h ∧ settleHeader path asked h = (h, none)) ∧
          (∀ message, (openAt path asked later).2 ≠ .error (.configMismatch message)) ∧
          ∀ other, other ≠ asked →
            ∃ message, (openAt path other later).2 = .error (.configMismatch message) := by
  have home : Home made path place f := ⟨leads, sound_of_makePath makes, roomy⟩
  refine ⟨creationTrail_isTrail makes home unmade asked, ?_⟩
  intro crashed crashes
  have promising : Promising path place asked disk made f := ⟨makes, home, .unmade unmade⟩
  obtain ⟨made', f', still⟩ := promising.crashes crashes
  obtain ⟨after, g, opened, home', holds, swept⟩ := still.opens
  refine ⟨after, g, opened, home', readHeader_bytes holds.header path, swept, ?_⟩
  intro later uses
  have labelled : Labelled path place asked later := .uses ⟨g, home', holds.header⟩ uses
  obtain ⟨passes, noMismatch⟩ := labelled.passes
  exact ⟨passes, noMismatch, fun other different => labelled.mismatch different⟩

/-- A first crash comes between the two folders on the way, a second one behind the first
byte of the header. -/
theorem creation_recovers_sample :
    let asked : Header := ⟨2, .cosine⟩
    let crashed : Disk := { root := [("a", .folder [])] }
    let again : Disk :=
      { root := [("a", .folder [("b", .folder [(temporaryName, .file [123])])])] }
    Interrupted "a/b" asked {} crashed ∧ Interrupted "a/b" asked crashed again ∧
      (openAt "a/b" asked again).2 = .ok { path := "a/b", index := fresh asked } := by
  intro asked crashed again
  have first : Interrupted "a/b" asked {} crashed := List.mem_of_getElem? (i := 1) rfl
  have second : Interrupted "a/b" asked crashed again := List.mem_of_getElem? (i := 3) rfl
  have made : ({} : Disk).makePath "a/b" =
      ({ root := [("a", .folder [("b", .folder [])])] }, none) := rfl
  obtain ⟨-, recovers⟩ := creation_recovers made rfl unmade_empty (by decide) asked
  obtain ⟨after, g, opened, -⟩ := recovers again (.tail (.single first) second)
  exact ⟨first, second, congrArg Prod.snd opened⟩

end Collection

end Retrieval
