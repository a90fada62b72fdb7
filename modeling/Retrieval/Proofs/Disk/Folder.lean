/-
# Retrieval.Proofs.Disk.Folder -- what the steps of a folder leave behind

A file that was written from a text is read back as that text (`readText_ofText`).
The steps of a replacement, run to the end, leave the new content under the target
and nothing under the temporary name, and they concern no other name
(`run_replacement`).  Stopped anywhere, they have left a part of the new content under
the temporary name and nothing else, or are done (`run_replacement_prefix`): the target
never holds a part of anything.

`Folder.IsFile` says of a name that nothing but a file that can be written is in its
place: a file can be made there.
-/
import Retrieval.Disk.Basic
import Retrieval.Proofs.Entries

namespace Retrieval

set_option autoImplicit false

namespace Folder

variable {f : Folder} {name : String}

/-! ## Reading -/

theorem readText_ofText {text : List Char}
    (present : Entries.get? name f = some (.file (Bytes.ofText text))) :
    f.readText name = .ok text := by
  have content : f.read name = .ok (Bytes.ofText text) := by rw [read, present]
  simp only [readText, content, bind, Except.bind, Bytes.text?_ofText]

theorem has_eq_true_iff : f.has name = true ↔ ∃ node, Entries.get? name f = some node :=
  Option.isSome_iff_exists

theorem has_eq_false_iff : f.has name = false ↔ Entries.get? name f = none := by
  simp [has]

/-! ## Writing -/

/-- What is in the place of a file is a file that can be written, if anything is. -/
def IsFile (f : Folder) (name : String) : Prop :=
  ∀ node, Entries.get? name f = some node → ∃ content, node = .file content

theorem isFile_of_file {content : Bytes} (found : Entries.get? name f = some (.file content)) :
    f.IsFile name := by
  intro node other
  exact ⟨content, Option.some.inj (other.symm.trans found)⟩

theorem isFile_of_none (absent : Entries.get? name f = none) : f.IsFile name := by
  intro node other
  rw [absent] at other
  cases other

theorem IsFile.not_folder (isFile : f.IsFile name) (below : List (String × Node)) :
    Entries.get? name f ≠ some (.folder below) := by
  intro found
  obtain ⟨content, isContent⟩ := isFile _ found
  cases isContent

/-- A name that is not that of a file is that of a locked one or of a folder. -/
theorem not_isFile_iff :
    ¬ f.IsFile name ↔ (∃ content, Entries.get? name f = some (.locked content)) ∨
      ∃ below, Entries.get? name f = some (.folder below) := by
  cases found : Entries.get? name f with
  | none => simp [isFile_of_none found]
  | some node => cases node <;> simp [IsFile, found]

theorem write_of_isFile (isFile : f.IsFile name) (content : Bytes) :
    f.write name content = .ok (Entries.insert name (.file content) f) := by
  unfold write
  split
  · rename_i below found
    exact absurd found (isFile.not_folder below)
  · rename_i bytes found
    obtain ⟨_, isContent⟩ := isFile _ found
    cases isContent
  · rfl

theorem exists_error_of_write (blocked : ¬ f.IsFile name) (content : Bytes) :
    ∃ cause, f.write name content = .error cause := by
  rcases not_isFile_iff.1 blocked with ⟨bytes, found⟩ | ⟨below, found⟩
  · exact ⟨.accessDenied, by rw [write, found]⟩
  · exact ⟨.isDirectory, by rw [write, found]⟩

/-! ## Steps in a row -/

theorem run_cons_of_ok {g : Folder} {s : Step} (done : f.step s = .ok g) (rest : List Step) :
    f.run (s :: rest) = g.run rest := by
  rw [run, done]

theorem run_append_of_ok {g : Folder} {s : List Step} (done : f.run s = (g, none))
    (t : List Step) : f.run (s ++ t) = g.run t := by
  induction s generalizing f with
  | nil =>
      cases done
      rfl
  | cons step s ih =>
      rw [List.cons_append]
      cases taken : f.step step with
      | error e => simp [run, taken] at done
      | ok h =>
          rw [run_cons_of_ok taken] at done ⊢
          exact ih done

/-- Bytes are appended one by one to a file that is there. -/
theorem run_appends {old : Bytes} (present : Entries.get? name f = some (.file old))
    (content : Bytes) :
    ∃ g, f.run (content.map (.append name)) = (g, none) ∧
      ∀ other, Entries.get? other g =
        if other = name then some (.file (old ++ content)) else Entries.get? other f := by
  induction content generalizing f old with
  | nil =>
      refine ⟨f, rfl, ?_⟩
      intro other
      split
      · rename_i same
        rw [same, List.append_nil, present]
      · rfl
  | cons byte content ih =>
      have taken : f.step (.append name byte) =
          .ok (Entries.insert name (.file (old ++ [byte])) f) := by
        have content : f.read name = .ok old := by rw [read, present]
        rw [step, content]
        exact write_of_isFile (isFile_of_file present) _
      have there : Entries.get? name (Entries.insert name (.file (old ++ [byte])) f) =
          some (.file (old ++ [byte])) := by
        rw [Entries.get?_insert, if_pos rfl]
      obtain ⟨g, ran, left⟩ := ih there
      refine ⟨g, by rw [List.map_cons, run_cons_of_ok taken, ran], ?_⟩
      intro other
      rw [left, Entries.get?_insert, List.append_assoc, List.singleton_append]
      split <;> rfl

/-- **A replacement leaves the new content under the target** and nothing under the
temporary name. -/
theorem run_replacement {temporary target : String} (different : target ≠ temporary)
    (isTemporary : f.IsFile temporary) (isTarget : f.IsFile target) (content : Bytes) :
    ∃ g, f.run (replacement temporary target content) = (g, none) ∧
      ∀ name, Entries.get? name g =
        if name = target then some (.file content)
        else if name = temporary then none
        else Entries.get? name f := by
  have created : f.step (.create temporary) = .ok (Entries.insert temporary (.file []) f) :=
    write_of_isFile isTemporary []
  have blank : Entries.get? temporary (Entries.insert temporary (.file []) f) =
      some (.file []) := by
    rw [Entries.get?_insert, if_pos rfl]
  obtain ⟨g, appended, left⟩ := run_appends blank content
  have source : Entries.get? temporary g = some (.file content) := by
    rw [left, if_pos rfl, List.nil_append]
  have old : Entries.get? target g = Entries.get? target f := by
    rw [left, if_neg different, Entries.get?_insert, if_neg different]
  have renamed : g.step (.rename temporary target) =
      .ok (Entries.insert target (.file content) (Entries.erase temporary g)) := by
    rw [step, source, old]
    cases found : Entries.get? target f with
    | none => rfl
    | some node =>
        obtain ⟨_, rfl⟩ := isTarget node found
        rfl
  refine ⟨Entries.insert target (.file content) (Entries.erase temporary g), ?_, ?_⟩
  · rw [replacement, List.cons_append, run_cons_of_ok created, run_append_of_ok appended,
      run_cons_of_ok renamed]
    rfl
  · intro name
    rw [Entries.get?_insert, Entries.get?_erase, left, Entries.get?_insert]
    by_cases isNew : name = target
    · simp [isNew]
    · by_cases isOld : name = temporary
      · simp [isOld]
      · simp [isNew, isOld]

/-- Where the temporary file cannot be made, a replacement stops at once. -/
theorem run_replacement_of_blocked {temporary : String} (blocked : ¬ f.IsFile temporary)
    (target : String) (content : Bytes) :
    ∃ cause, f.run (replacement temporary target content) = (f, some cause) := by
  obtain ⟨cause, refused⟩ := exists_error_of_write blocked []
  refine ⟨cause, ?_⟩
  rw [replacement, List.cons_append, run, step, refused]

/-- A replacement that ends well could make the temporary file. -/
theorem isFile_of_run_replacement {g : Folder} {temporary target : String} {content : Bytes}
    (done : f.run (replacement temporary target content) = (g, none)) : f.IsFile temporary := by
  refine Classical.byContradiction fun blocked => ?_
  obtain ⟨cause, stopped⟩ := run_replacement_of_blocked blocked target content
  rw [stopped] at done
  cases done

/-- **A replacement that fails has done nothing,** when a file can be made in the place of
its target. -/
theorem run_replacement_refused {g : Folder} {temporary target : String} {content : Bytes}
    {cause : FileError} (different : target ≠ temporary) (isTarget : f.IsFile target)
    (failed : f.run (replacement temporary target content) = (g, some cause)) : g = f := by
  by_cases isTemporary : f.IsFile temporary
  · obtain ⟨h, done, -⟩ := run_replacement different isTemporary isTarget content
    rw [done] at failed
    cases failed
  · obtain ⟨_, stopped⟩ := run_replacement_of_blocked isTemporary target content
    rw [stopped] at failed
    cases failed
    rfl

/-! ## Stopping between steps -/

/-- The folders that steps in a row pass through, from the first step on. -/
def trail (f : Folder) : List Step → List Folder
  | [] => []
  | s :: rest =>
      match f.step s with
      | .error _ => []
      | .ok g => g :: trail g rest

/-- Where steps pass through is where some first steps of them end. -/
theorem exists_run_of_mem_trail {g : Folder} {steps : List Step} (member : g ∈ f.trail steps) :
    ∃ first, first <+: steps ∧ first ≠ [] ∧ f.run first = (g, none) := by
  induction steps generalizing f with
  | nil => cases member
  | cons s rest ih =>
      rw [trail] at member
      cases taken : f.step s with
      | error e => simp [taken] at member
      | ok h =>
          rw [taken] at member
          rcases List.mem_cons.1 member with rfl | later
          · refine ⟨[s], ⟨rest, rfl⟩, by simp, ?_⟩
            rw [run_cons_of_ok taken]
            rfl
          · obtain ⟨first, isPrefix, -, ran⟩ := ih later
            refine ⟨s :: first, List.cons_prefix_cons.2 ⟨rfl, isPrefix⟩, by simp, ?_⟩
            rw [run_cons_of_ok taken, ran]

/-- **A replacement that stops anywhere** has written a part of the new content under the
temporary name, or is done. -/
theorem run_replacement_prefix {temporary target : String} (different : target ≠ temporary)
    (isTemporary : f.IsFile temporary) (isTarget : f.IsFile target) {content : Bytes}
    {first : List Step} (isPrefix : first <+: replacement temporary target content)
    (nonempty : first ≠ []) {g : Folder} (ran : f.run first = (g, none)) :
    (∃ written, ∀ name, Entries.get? name g =
      if name = temporary then some (.file written) else Entries.get? name f) ∨
    (∀ name, Entries.get? name g =
      if name = target then some (.file content)
      else if name = temporary then none
      else Entries.get? name f) := by
  rcases List.prefix_concat_iff.1 isPrefix with whole | early
  · obtain ⟨h, done, left⟩ := run_replacement different isTemporary isTarget content
    rw [whole, ← replacement, done] at ran
    cases ran
    exact .inr left
  · -- the file is there from the first step on, and bytes are appended to it
    obtain ⟨step, rest, rfl⟩ := List.exists_cons_of_ne_nil nonempty
    obtain ⟨rfl, appends⟩ := List.cons_prefix_cons.1 early
    obtain ⟨written, -, rfl⟩ := List.prefix_map_iff.1 appends
    have created : f.step (.create temporary) = .ok (Entries.insert temporary (.file []) f) :=
      write_of_isFile isTemporary []
    have blank : Entries.get? temporary (Entries.insert temporary (.file []) f) =
        some (.file []) := by
      rw [Entries.get?_insert, if_pos rfl]
    obtain ⟨h, done, left⟩ := run_appends blank written
    rw [run_cons_of_ok created, done] at ran
    cases ran
    refine .inl ⟨written, ?_⟩
    intro name
    rw [left, Entries.get?_insert, List.nil_append]
    split
    · rfl
    · rfl

end Folder

end Retrieval
