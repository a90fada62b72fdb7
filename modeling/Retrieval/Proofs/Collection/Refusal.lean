/-
# Retrieval.Proofs.Collection.Refusal -- a collection that does not open

Opening fails on the way to the folder, at the header or at the log (`Collection.Refuses`).
Wherever it fails, no file has come or gone or changed: folders were made on the way at most,
and a folder that was there holds what it held.  A log is cut only when all of it was replayed,
and a header is written only where the log is empty or missing (`Collection.Settling`), so that
nothing can fail afterwards -- but for one thing, an empty log that cannot be read
(`Collection.Barred`).  There the header is new, and opening fails all the same
(`refused_keeps`).

What it fails with is a mismatch, damage or a file operation (`IndexError.Documented`),
with one exception: a record that can be read but does not fit the collection is told as the
fault of its embedding.  This is so exactly when the first line of the log that does not pass
is such a record (`openAt_fault_iff`, `openAt_documented`).
-/
import Retrieval.Proofs.Collection.Place
import Retrieval.Proofs.Disk.Trail
import Retrieval.Proofs.Except

namespace Retrieval

set_option autoImplicit false

/-- What opening a collection is documented to fail with: a mismatch with what is asked for,
damage, and a failing file operation. -/
inductive IndexError.Documented : IndexError → Prop
  | configMismatch (message : String) : Documented (.configMismatch message)
  | corrupt (message : String) : Documented (.corrupt message)
  | file (e : FileError) : Documented (.file e)

namespace Collection

variable {path : String} {place : List String} {asked : Header} {disk after : Disk}
variable {f g : Folder} {index : Index} {fault : Embedding.Fault} {e : IndexError}

/-! ## The header -/

theorem documented_of_readHeader (failed : readHeader path f = .error e) : e.Documented := by
  unfold readHeader at failed
  split at failed
  · cases failed
    exact .file _
  · split at failed
    · cases failed
      exact .corrupt _
    · cases failed

/-- How the header of a folder is settled: it is found to be the one that is asked for, or
written where there is neither header nor log, or refused, and then nothing has changed. -/
inductive Settling (path : String) (asked : Header) (f : Folder) :
    Folder → Option IndexError → Prop
  | found (header : readHeader path f = .ok asked) : Settling path asked f f none
  | written {g : Folder} (noHeader : Entries.get? headerName f = none)
      (blank : holdsLog f = false) (isFile : f.IsFile temporaryName) (headed : Headed asked f g) :
      Settling path asked f g none
  | refused {e : IndexError} (documented : e.Documented) : Settling path asked f f (some e)

/-- **The header is settled in one of these ways.** -/
theorem settling_settleHeader (path : String) (asked : Header) (f : Folder) :
    Settling path asked f (settleHeader path asked f).1 (settleHeader path asked f).2 := by
  unfold settleHeader
  by_cases present : f.has headerName = true
  · rw [if_pos present]
    cases read : readHeader path f with
    | error e => exact .refused (documented_of_readHeader read)
    | ok stored =>
        dsimp only
        by_cases same : stored = asked
        · subst same
          rw [(checkHeader_eq_ok_iff path stored stored).2 rfl]
          exact .found read
        · obtain ⟨message, refused⟩ := checkHeader_mismatch same path
          rw [refused]
          exact .refused (.configMismatch message)
  · rw [if_neg present]
    have noHeader := Folder.has_eq_false_iff.1 (Bool.eq_false_iff.2 present)
    have different : headerName ≠ temporaryName := by decide
    cases blank : holdsLog f with
    | true =>
        rw [if_pos rfl]
        exact .refused (.corrupt _)
    | false =>
        rw [if_neg Bool.false_ne_true]
        cases ran : f.run (headerSteps asked) with
        | mk g failure =>
            cases failure with
            | some cause =>
                cases Folder.run_replacement_refused different (Folder.isFile_of_none noHeader) ran
                exact .refused (.file cause)
            | none =>
                have isFile := Folder.isFile_of_run_replacement ran
                obtain ⟨_, again, left⟩ := Folder.run_replacement different isFile
                  (Folder.isFile_of_none noHeader) asked.bytes
                cases ran.symm.trans again
                exact .written noHeader blank isFile left

/-! ## The log -/

/-- The log is a text, and the first line of it that does not pass is a record that an index
of the dimension refuses. -/
inductive Misfit (f : Folder) (dimension : UInt64) (fault : Embedding.Fault) : Prop
  | line {text rest line : List Char} {lines before later : List (List Char)}
      (read : f.readText logName = .ok text) (framed : Text.Framed text lines rest)
      (split : lines ++ [rest] = before ++ line :: later)
      (passes : ∀ line ∈ before, Log.Passes dimension line)
      (refused : Log.Refused dimension line fault) : Misfit f dimension fault

theorem replayLog_of_misfit (misfit : Misfit f index.dimension fault) (path : String) :
    replayLog path index f = (f, .error (.fault fault)) := by
  obtain ⟨read, framed, split, passes, refused⟩ := misfit
  rw [replayLog_of_readText read, Log.replay_of_refused index framed split passes refused]

/-- **A log that is refused is left as it is,** and the reason is documented, unless a record
does not fit. -/
theorem replayLog_refused (failed : replayLog path index f = (g, .error e)) :
    g = f ∧ (e.Documented ∨ ∃ fault, e = .fault fault ∧ Misfit f index.dimension fault) := by
  cases read : f.readText logName with
  | error cause =>
      by_cases present : f.has logName = true
      · rw [replayLog, if_pos present, read] at failed
        cases failed
        exact ⟨rfl, .inl (.file cause)⟩
      · have absent := Folder.has_eq_false_iff.1 (Bool.eq_false_iff.2 present)
        rw [replayLog_of_none absent] at failed
        cases failed
  | ok text =>
      obtain ⟨lines, rest, framed⟩ := Text.exists_framed text
      have replayed := Log.replayed index framed
      rw [replayLog_of_readText read] at failed
      generalize Log.replay index text = outcome at failed replayed
      cases replayed with
      | whole => cases failed
      | torn => cases failed
      | garbled =>
          cases failed
          exact ⟨rfl, .inl (.corrupt _)⟩
      | refused before line later fault split passes here =>
          cases failed
          exact ⟨rfl, .inr ⟨fault, rfl, .line read framed split passes here⟩⟩

/-- Where there is no log, or an empty one that can be read, nothing is refused. -/
theorem replayLog_of_blank (blank : holdsLog f = false)
    (readable : Entries.get? logName f ≠ some (.locked [])) (path : String) (index : Index) :
    replayLog path index f = (f, .ok index) := by
  unfold holdsLog at blank
  split at blank
  · rename_i absent
    exact replayLog_of_none absent path index
  · rename_i empty
    have read : f.readText logName = .ok [] := Folder.readText_ofText empty
    rw [replayLog_of_readText read]
    rfl
  · rename_i locked
    exact absurd locked readable
  · cases blank

theorem replayLog_of_locked {bytes : Bytes}
    (locked : Entries.get? logName f = some (.locked bytes)) (path : String) (index : Index) :
    replayLog path index f = (f, .error (.file .accessDenied)) := by
  have present : f.has logName = true := Folder.has_eq_true_iff.2 ⟨_, locked⟩
  have read : f.readText logName = .error .accessDenied := by
    rw [Folder.readText, Folder.read, locked]
    rfl
  rw [replayLog, if_pos present, read]

/-! ## In a folder -/

theorem openIn_of_misfit (header : readHeader path f = .ok asked)
    (misfit : Misfit f asked.dimension fault) :
    openIn path asked f = (f, .error (.fault fault)) := by
  rw [openIn_of_readHeader header, replayLog_of_misfit misfit]

/-- The folder has no header, and in the place of the log is an empty file that cannot be
read. -/
structure Barred (f : Folder) : Prop where
  noHeader : Entries.get? headerName f = none
  locked : Entries.get? logName f = some (.locked [])

/-- How a folder is refused: it is left as it is, and the reason is documented or a record does
not fit; or the header was written beside a log that cannot be read. -/
inductive Rejects (path : String) (asked : Header) (f : Folder) : Folder → IndexError → Prop
  | documented {e : IndexError} (documented : e.Documented) : Rejects path asked f f e
  | misfit {fault : Embedding.Fault} (header : readHeader path f = .ok asked)
      (misfit : Misfit f asked.dimension fault) : Rejects path asked f f (.fault fault)
  | barred {g : Folder} (barred : Barred f) (isFile : f.IsFile temporaryName)
      (headed : Headed asked f g) : Rejects path asked f g (.file .accessDenied)

/-- **A folder is refused in one of these ways.** -/
theorem openIn_refused (failed : openIn path asked f = (g, .error e)) :
    Rejects path asked f g e := by
  have settling := settling_settleHeader path asked f
  cases settled : settleHeader path asked f with
  | mk h failure =>
      rw [settled] at settling
      cases settling with
      | refused documented =>
          rw [openIn, settled] at failed
          cases failed
          exact .documented documented
      | found header =>
          rw [openIn_of_readHeader header] at failed
          cases replayed : replayLog path (fresh asked) h with
          | mk last result =>
              rw [replayed] at failed
              cases result with
              | ok index => cases failed
              | error cause =>
                  cases failed
                  obtain ⟨rfl, documented | ⟨fault, rfl, misfit⟩⟩ := replayLog_refused replayed
                  · exact .documented documented
                  · exact .misfit header misfit
      | written noHeader blank isFile headed =>
          -- the log is what it was before the header was written
          have stillBlank : holdsLog h = false := by rwa [holdsLog, headed.log_eq]
          rw [openIn, settled] at failed
          dsimp only at failed
          by_cases locked : Entries.get? logName h = some (.locked [])
          · rw [replayLog_of_locked locked] at failed
            cases failed
            exact .barred ⟨noHeader, headed.log_eq.symm.trans locked⟩ isFile headed
          · rw [replayLog_of_blank stillBlank locked] at failed
            cases failed

theorem openCramped_refused (failed : openCramped path asked f = .error e) : e.Documented := by
  unfold openCramped at failed
  split at failed
  · cases failed
    exact .file _
  · obtain read | ⟨stored, -, failed⟩ := bind_eq_error_iff.1 failed
    · exact documented_of_readHeader read
    obtain checked | ⟨_, -, failed⟩ := bind_eq_error_iff.1 failed
    · by_cases same : stored = asked
      · rw [(checkHeader_eq_ok_iff path stored asked).2 same] at checked
        cases checked
      · obtain ⟨message, refused⟩ := checkHeader_mismatch same path
        cases refused.symm.trans checked
        exact .configMismatch message
    · cases failed

/-! ## On a disk -/

/-- The ways in which a collection does not open: the folder cannot be made or found, or what
is in it is refused. -/
inductive Refuses (path : String) (asked : Header) (disk : Disk) : Disk → IndexError → Prop
  | unmade {made : Disk} {cause : FileError} (makes : disk.makePath path = (made, some cause)) :
      Refuses path asked disk made (.file cause)
  | lost {made : Disk} {cause : FileError} (makes : disk.makePath path = (made, none))
      (lost : made.folder path = .error cause) : Refuses path asked disk made (.file cause)
  | cramped {made : Disk} {place : List String} {f : Folder} {e : IndexError}
      (makes : disk.makePath path = (made, none)) (leads : made.folder path = .ok (place, f))
      (failed : openCramped path asked f = .error e) : Refuses path asked disk made e
  | inside {made : Disk} {place : List String} {f g : Folder} {e : IndexError}
      (makes : disk.makePath path = (made, none)) (home : Home made path place f)
      (failed : openIn path asked f = (g, .error e)) :
      Refuses path asked disk (made.put place g) e

theorem refuses_of_openAt (failed : openAt path asked disk = (after, .error e)) :
    Refuses path asked disk after e := by
  unfold openAt at failed
  cases makes : disk.makePath path with
  | mk made failure =>
      rw [makes] at failed
      cases failure with
      | some cause =>
          cases failed
          exact .unmade makes
      | none =>
          dsimp only at failed
          cases leads : made.folder path with
          | error cause =>
              rw [leads] at failed
              cases failed
              exact .lost makes leads
          | ok reached =>
              obtain ⟨place, f⟩ := reached
              rw [leads] at failed
              dsimp only at failed
              cases cramped : isCramped path with
              | true =>
                  rw [cramped, if_pos rfl] at failed
                  obtain ⟨rfl, refused⟩ := Prod.mk.inj failed
                  exact .cramped makes leads refused
              | false =>
                  rw [cramped] at failed
                  cases inside : openIn path asked f with
                  | mk g result =>
                      rw [inside] at failed
                      cases failed
                      exact .inside makes ⟨leads, sound_of_makePath makes, cramped⟩ inside

/-- The path leads to a collection for the header, with a record in its log that does not fit,
in the first line that does not pass. -/
inductive MisfitAt (path : String) (asked : Header) (disk : Disk) (fault : Embedding.Fault) :
    Prop
  | inside {made : Disk} {place : List String} {f : Folder}
      (makes : disk.makePath path = (made, none)) (home : Home made path place f)
      (header : readHeader path f = .ok asked) (misfit : Misfit f asked.dimension fault) :
      MisfitAt path asked disk fault

/-- **What opening fails with is documented,** unless a record does not fit. -/
theorem openAt_documented (failed : openAt path asked disk = (after, .error e)) :
    e.Documented ∨ ∃ fault, e = .fault fault ∧ MisfitAt path asked disk fault := by
  cases refuses_of_openAt failed with
  | unmade => exact .inl (.file _)
  | lost => exact .inl (.file _)
  | cramped _ _ refused => exact .inl (openCramped_refused refused)
  | inside makes home refused =>
      cases openIn_refused refused with
      | documented documented => exact .inl documented
      | misfit header misfit => exact .inr ⟨_, rfl, .inside makes home header misfit⟩
      | barred => exact .inl (.file _)

/-- **The fault of an embedding is told exactly when a record does not fit.** -/
theorem openAt_fault_iff :
    (openAt path asked disk).2 = .error (.fault fault) ↔ MisfitAt path asked disk fault := by
  constructor
  · intro failed
    rcases openAt_documented (Prod.ext rfl failed) with documented | ⟨_, isFault, misfit⟩
    · cases documented
    · cases isFault
      exact misfit
  · rintro ⟨makes, home, header, misfit⟩
    rw [openAt_of_makePath makes home.leads, openAt_of_home home, openIn_of_misfit header misfit]

end Collection

end Retrieval
