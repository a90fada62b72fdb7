/-
# Retrieval.Proofs.Store.Creation -- a store that cannot be made

A store is not made when the probe fails, when the dimension is zero, or when its collection
does not open (`Store.CreateFails`).  In none of these ways is anything lost: no file has come
or gone or changed, and the folder of the collection, if there is one, holds what it held.
The one exception is a folder without a header whose log is empty and cannot be read: there a
header may be new (`Store.create_failure_keeps_files`).  Folders may be new anywhere on the
way, also in the place of a log that is still to come.  Pole: `failed_create_changes_folder`.

With a dimension that is not zero only the collection can make the argument invalid, by a
record in its log that does not fit it (`Store.create_blames_record_iff`).
-/
import Retrieval.Proofs.Collection.Refusal
import Retrieval.Proofs.Store.Pending

namespace Retrieval

set_option autoImplicit false

/-! ## What a failure is told as -/

namespace StoreError

theorem ofIndexError_eq_invalidArgument_iff {cause : IndexError} {message : String} :
    ofIndexError cause = invalidArgument message ↔
      ∃ fault, cause = .fault fault ∧ message = fault.message := by
  constructor
  · intro told
    cases cause with
    | fault fault =>
        cases told
        exact ⟨fault, rfl, rfl⟩
    | _ => cases told
  · rintro ⟨fault, rfl, rfl⟩
    rfl

end StoreError

namespace Store

variable {σ : Type} {e : Embedder σ} {o : Options} {w after : World σ}
variable {failure : StoreError} {dimension : UInt64} {service : σ}

/-! ## How making a store fails -/

/-- The ways in which a store is not made: there is no dimension, it is zero, or the
collection does not open. -/
inductive CreateFails (e : Embedder σ) (o : Options) (w : World σ) :
    StoreError → World σ → Prop
  | unprobed {cause : EmbedderError} {service : σ} (unasked : o.dimension = none)
      (probed : e.one probe w.service = (.error cause, service)) :
      CreateFails e o w (.embedding cause) { w with service }
  | flat {service : σ} (resolved : resolveDimension e o w.service = (.ok 0, service)) :
      CreateFails e o w (.invalidArgument "vector dimension must be positive") { w with service }
  | unopened {dimension : UInt64} {service : σ} {path : String} {disk : Disk}
      {cause : IndexError} (resolved : resolveDimension e o w.service = (.ok dimension, service))
      (positive : dimension ≠ 0) (durable : o.path = some path)
      (failed : Collection.openAt path ⟨dimension, o.metric⟩ w.disk = (disk, .error cause)) :
      CreateFails e o w (.ofIndexError cause) { service, disk }

/-- Without a dimension the probe has failed. -/
theorem resolveDimension_eq_error
    (failed : resolveDimension e o w.service = (.error failure, service)) :
    ∃ cause, failure = .embedding cause ∧ o.dimension = none ∧
      e.one probe w.service = (.error cause, service) := by
  unfold resolveDimension at failed
  cases asked : o.dimension with
  | some dimension =>
      rw [asked] at failed
      cases failed
  | none =>
      rw [asked] at failed
      dsimp only at failed
      cases probed : e.one probe w.service with
      | mk answer service' =>
          rw [probed] at failed
          cases answer with
          | ok v => cases failed
          | error cause =>
              cases failed
              exact ⟨cause, rfl, rfl, rfl⟩

/-- **Making a store fails in one of these ways.** -/
theorem createFails_of_create (failed : create e o w = (.error failure, after)) :
    CreateFails e o w failure after := by
  unfold create at failed
  cases resolved : resolveDimension e o w.service with
  | mk answer service =>
      rw [resolved] at failed
      cases answer with
      | error cause =>
          cases failed
          obtain ⟨cause, rfl, unasked, probed⟩ := resolveDimension_eq_error resolved
          exact .unprobed unasked probed
      | ok dimension =>
          dsimp only at failed
          by_cases zero : dimension = 0
          · subst zero
            rw [if_pos rfl] at failed
            cases failed
            exact .flat resolved
          · rw [if_neg zero] at failed
            cases durable : o.path with
            | none =>
                rw [durable] at failed
                cases failed
            | some path =>
                rw [durable] at failed
                cases opened : Collection.openAt path ⟨dimension, o.metric⟩ w.disk with
                | mk disk result =>
                    simp only [Backend.openAt, opened] at failed
                    cases result with
                    | ok c => cases failed
                    | error cause =>
                        cases failed
                        exact .unopened resolved zero durable opened

/-- A collection that does not open is the reason that a store is not made. -/
theorem create_of_unopened {path : String} {disk : Disk} {cause : IndexError}
    (resolved : resolveDimension e o w.service = (.ok dimension, service))
    (positive : dimension ≠ 0) (durable : o.path = some path)
    (failed : Collection.openAt path ⟨dimension, o.metric⟩ w.disk = (disk, .error cause)) :
    create e o w = (.error (.ofIndexError cause), { service, disk }) := by
  simp only [create, resolved, if_neg positive, durable, Backend.openAt, failed, Except.map]

/-! ## What is left on the disk -/

/-- **Only a record that does not fit makes the argument invalid,** when the dimension is not
zero. -/
theorem create_blames_record_iff
    (resolved : resolveDimension e o w.service = (.ok dimension, service))
    (positive : dimension ≠ 0) {message : String} :
    (create e o w).1 = .error (.invalidArgument message) ↔
      ∃ path fault, o.path = some path ∧
        Collection.MisfitAt path ⟨dimension, o.metric⟩ w.disk fault ∧ message = fault.message := by
  constructor
  · intro failed
    cases made : create e o w with
    | mk answer after =>
        rw [made] at failed
        cases failed
        generalize told : StoreError.invalidArgument message = failure at made
        cases createFails_of_create made with
        | unprobed => cases told
        | flat zero =>
            cases resolved.symm.trans zero
            exact absurd rfl positive
        | unopened resolved' _ durable unopened =>
            cases resolved.symm.trans resolved'
            obtain ⟨fault, rfl, rfl⟩ :=
              StoreError.ofIndexError_eq_invalidArgument_iff.1 told.symm
            exact ⟨_, fault, durable,
              Collection.openAt_fault_iff.1 (congrArg Prod.snd unopened), rfl⟩
  · rintro ⟨path, fault, durable, misfit, rfl⟩
    have unopened := Collection.openAt_fault_iff.2 misfit
    rw [create_of_unopened resolved positive durable (Prod.ext rfl unopened)]
    rfl

/-- **Damage is told as damage, unless a record does not fit.**  For every path, header and
disk: a collection that does not open fails with a mismatch, with damage or with a file
operation, or else with the fault of an embedding; and the latter exactly when the path leads
to a collection for this header, in whose log the first line that does not pass is a record
that can be read but does not fit.  Such a record, and nothing else on the disk, makes a store
fail with an invalid argument when the dimension is not zero. -/
theorem create_reports_damage
    (resolved : resolveDimension e o w.service = (.ok dimension, service))
    (positive : dimension ≠ 0) :
    (∀ path asked disk after cause,
      Collection.openAt path asked disk = (after, .error cause) →
        cause.Documented ∨
          ∃ fault, cause = .fault fault ∧ Collection.MisfitAt path asked disk fault) ∧
    (∀ path asked disk fault, (Collection.openAt path asked disk).2 = .error (.fault fault) ↔
      Collection.MisfitAt path asked disk fault) ∧
    ∀ message, (create e o w).1 = .error (.invalidArgument message) ↔
      ∃ path fault, o.path = some path ∧
        Collection.MisfitAt path ⟨dimension, o.metric⟩ w.disk fault ∧
        message = fault.message :=
  ⟨fun _ _ _ _ _ => Collection.openAt_documented, fun _ _ _ _ => Collection.openAt_fault_iff,
    fun _ => create_blames_record_iff resolved positive⟩

/-! ### Records that do not fit -/

/-- The disk with a collection for two dimensions that has these lines in its log. -/
def shelfOf (lines : List (List Char)) : Disk :=
  Collection.shelf ⟨2, .euclidean⟩ (Bytes.ofText (Text.ended lines))

theorem misfitAt_shelfOf (before later : List (List Char)) {line : List Char}
    {fault : Embedding.Fault} (unbroken : ∀ l ∈ before ++ line :: later, '\n' ∉ l)
    (passes : ∀ l ∈ before, Log.Passes 2 l) (refused : Log.Refused 2 line fault) :
    Collection.MisfitAt "c" ⟨2, .euclidean⟩ (shelfOf (before ++ line :: later)) fault := by
  have home : Collection.Home (shelfOf (before ++ line :: later)) "c" ["c"]
      [(Collection.headerName, .file (Header.bytes ⟨2, .euclidean⟩)),
        (Collection.logName, .file (Bytes.ofText (Text.ended (before ++ line :: later))))] :=
    ⟨rfl, .inr (by decide), by decide⟩
  have framed : Text.Framed (Text.ended (before ++ line :: later)) (before ++ line :: later) [] :=
    ⟨(List.append_nil _).symm, unbroken, List.not_mem_nil⟩
  have split : before ++ line :: later ++ [[]] = before ++ line :: (later ++ [[]]) := by simp
  exact .inside (Disk.makePath_of_folder home.leads home.sound) home
    (Collection.readHeader_bytes rfl "c")
    (.line (Folder.readText_ofText rfl) framed split passes refused)

/-- A record of the wrong length, before one that fits. -/
def shortLines : List (List Char) :=
  [Record.text ⟨0, [.ofInt 1]⟩, Record.text ⟨7, [.ofInt 1, .ofInt 1]⟩]

/-- **A record of the wrong length is told as a fault of the caller.** -/
theorem shortRecord_blames_caller :
    (Collection.openAt "c" ⟨2, .euclidean⟩ (shelfOf shortLines)).2 =
      .error (.fault (.dimension 2 1)) ∧
    ¬ (IndexError.fault (.dimension 2 1)).Documented ∧
    (create sampleEmbedder durableOptions ⟨(), shelfOf shortLines⟩).1 =
      .error (.invalidArgument "dimension mismatch: expected 2, got 1") := by
  have refused : Log.Refused 2 (Record.text ⟨0, [.ofInt 1]⟩) (.dimension 2 1) :=
    ⟨⟨0, [.ofInt 1]⟩, by decide +kernel, by decide +kernel⟩
  have misfit : Collection.MisfitAt "c" ⟨2, .euclidean⟩ (shelfOf shortLines) (.dimension 2 1) :=
    misfitAt_shelfOf [] _ (by decide +kernel) nofun refused
  have message : (Embedding.Fault.dimension 2 1).message =
      "dimension mismatch: expected 2, got 1" := by decide +kernel
  have resolved : resolveDimension sampleEmbedder durableOptions () = (.ok 2, ()) := rfl
  refine ⟨Collection.openAt_fault_iff.2 misfit, nofun, ?_⟩
  rw [create_blames_record_iff (w := ⟨(), shelfOf shortLines⟩) resolved (by decide)]
  exact ⟨"c", .dimension 2 1, rfl, misfit, message.symm⟩

/-- A record without components, behind one that fits. -/
def emptyLines : List (List Char) := [Record.text ⟨7, [.ofInt 1, .ofInt 1]⟩, Record.text ⟨0, []⟩]

theorem create_reports_damage_sample :
    (create sampleEmbedder durableOptions ⟨(), shelfOf emptyLines⟩).1 =
      .error (.invalidArgument "empty vector not allowed") := by
  have valid : Embedding.Valid 2 [.ofInt 1, .ofInt 1] :=
    Embedding.fault?_eq_none_iff.1 (by decide +kernel)
  have passes : Log.Passes 2 (Record.text ⟨7, [.ofInt 1, .ofInt 1]⟩) :=
    .inr ⟨⟨7, [.ofInt 1, .ofInt 1]⟩, by decide +kernel, valid⟩
  have refused : Log.Refused 2 (Record.text ⟨0, []⟩) .empty :=
    ⟨⟨0, []⟩, by decide +kernel, by decide +kernel⟩
  have misfit : Collection.MisfitAt "c" ⟨2, .euclidean⟩ (shelfOf emptyLines) .empty :=
    misfitAt_shelfOf [_] [] (by decide +kernel) (List.forall_mem_singleton.2 passes) refused
  have resolved : resolveDimension sampleEmbedder durableOptions () = (.ok 2, ()) := rfl
  obtain ⟨-, -, blames⟩ :=
    create_reports_damage (w := ⟨(), shelfOf emptyLines⟩) resolved (by decide)
  exact (blames _).2 ⟨"c", .empty, rfl, misfit, rfl⟩

end Store

end Retrieval
