/-
# Retrieval.Proofs.Disk.Growth -- trees of folders that grow

One tree is within another when whatever is in it is in the other, a file for a file and a
folder for a folder (`Folder.Within`).  Making a folder is growth in this sense
(`Disk.within_makeFolder`), and the folder is there then (`Disk.folderAt_makeFolder`).
No file comes or goes or changes by it (`Folder.SameFiles`, `Disk.sameFiles_makeFolder`).

A path that leads to a folder in the larger tree can fail in the smaller one in one manner
only, by something that is not there yet (`Disk.folderAt_of_within`).
-/
import Retrieval.Proofs.Disk.Folder
import Retrieval.Proofs.Disk.Lookup

namespace Retrieval

set_option autoImplicit false

namespace Folder

/-! ## Trees that grow -/

/-- Whatever is in the one tree is in the other, a file for a file and a folder for a
folder. -/
def Within (f g : Folder) : Prop :=
  ∀ place node, f.at? place = some node →
    ∃ node', g.at? place = some node' ∧ node'.isFolder = node.isFolder

theorem Within.refl (f : Folder) : f.Within f := by
  intro place node found
  exact ⟨node, found, rfl⟩

theorem Within.trans {f g h : Folder} (fg : f.Within g) (gh : g.Within h) : f.Within h := by
  intro place node found
  obtain ⟨node', found', same⟩ := fg place node found
  obtain ⟨node'', found'', same'⟩ := gh place node' found'
  exact ⟨node'', found'', same'.trans same⟩

theorem Within.folder {f g : Folder} (within : f.Within g) {place : List String} {h : Folder}
    (found : f.at? place = some (.folder h)) : ∃ h', g.at? place = some (.folder h') := by
  obtain ⟨node, found', same⟩ := within place _ found
  cases node with
  | file _ | locked _ => cases same
  | folder h' => exact ⟨h', found'⟩

/-- Where something else than a folder is in the one tree, there is no folder in the other. -/
theorem Within.not_folder {f g : Folder} (within : f.Within g) {place : List String}
    {node : Node} (found : f.at? place = some node) (isFile : node.isFolder = false) (h : Folder) :
    g.at? place ≠ some (.folder h) := by
  intro there
  obtain ⟨node', found', same⟩ := within place node found
  cases there.symm.trans found'
  cases same.trans isFile

/-- The first name of a way down leads to the node, or to a folder with the rest of the way. -/
theorem at?_cons_eq_some {f : Folder} {name : String} {rest : List String} {node : Node} :
    f.at? (name :: rest) = some node ↔
      (rest = [] ∧ Entries.get? name f = some node) ∨
      (rest ≠ [] ∧ ∃ g, Entries.get? name f = some (.folder g) ∧ at? g rest = some node) := by
  cases found : Entries.get? name f with
  | none => cases rest <;> simp [at?, found]
  | some first =>
      cases first with
      | file _ | locked _ => cases rest <;> simp [at?, found]
      | folder g => cases rest <;> simp [at?, found]

/-- A tree that has the entries of another, and more names. -/
theorem within_insert {f : Folder} {name : String} (fresh : Entries.get? name f = none)
    (node : Node) : f.Within (Entries.insert name node f) := by
  intro place found here
  cases place with
  | nil =>
      cases here
      exact ⟨_, rfl, rfl⟩
  | cons first rest =>
      have other : first ≠ name := by
        rintro rfl
        rcases at?_cons_eq_some.1 here with ⟨-, there⟩ | ⟨-, g, there, -⟩
        · simp [fresh] at there
        · simp [fresh] at there
      refine ⟨found, ?_, rfl⟩
      rw [at?_cons_eq_some, Entries.get?_insert, if_neg other]
      exact at?_cons_eq_some.1 here

/-- A tree grows when a folder in it is replaced by one that has grown. -/
theorem within_put {f old new : Folder} {place : List String}
    (here : f.at? place = some (.folder old)) (grown : old.Within new) :
    f.Within (f.put new place) := by
  intro other node found
  rcases at?_put_cases here new other with ⟨rest, before, after⟩ | ⟨h, h', before, after⟩ | same
  · rw [after]
    exact grown rest node (before ▸ found)
  · rw [before] at found
    cases found
    exact ⟨.folder h', after, rfl⟩
  · exact ⟨node, same ▸ found, rfl⟩

/-! ## Trees with the same files -/

/-- In both trees the same files are in the same places, locked ones included. -/
def SameFiles (f g : Folder) : Prop :=
  ∀ place node, node.isFolder = false → (f.at? place = some node ↔ g.at? place = some node)

theorem SameFiles.refl (f : Folder) : f.SameFiles f := fun _ _ _ => Iff.rfl

theorem SameFiles.trans {f g h : Folder} (fg : f.SameFiles g) (gh : g.SameFiles h) :
    f.SameFiles h :=
  fun place node isFile => (fg place node isFile).trans (gh place node isFile)

end Folder

namespace Disk

open Retrieval.Path (Step)

variable {disk made : Disk} {start place : List String} {steps : List Step}

/-! ## Paths in trees that grow -/

/-- Following a path step by step. -/
theorem folderAt_cons {f : Folder} (here : disk.root.at? start = some (.folder f)) (step : Step)
    (rest : List Step) :
    disk.folderAt start (step :: rest) =
      match step with
      | .stay => disk.folderAt start rest
      | .up => disk.folderAt start.dropLast rest
      | .down name =>
          if Path.nameLimit < name.utf8ByteSize then .error .nameTooLong
          else if f.has name then disk.folderAt (start ++ [name]) rest
          else .error .notFound := by
  cases step with
  | stay => simp only [folderAt, walk, here]
  | up => simp only [folderAt, walk, here]
  | down name =>
      simp only [folderAt, walk, here]
      split
      · rfl
      · split
        · rfl
        · rfl

/-- **A path that leads to a folder later** leads there now, or to something that is not
there yet. -/
theorem folderAt_of_within {later : Disk} {f : Folder} (within : disk.root.Within later.root)
    (found : later.folderAt start steps = .ok (place, f)) :
    (∃ g, disk.folderAt start steps = .ok (place, g)) ∨
      disk.folderAt start steps = .error .notFound := by
  induction steps generalizing start with
  | nil =>
      obtain ⟨walked, arrived⟩ := folderAt_eq_ok.1 found
      cases walked
      cases here : disk.root.at? place with
      | none => exact .inr (by simp [folderAt, walk, here, bind, Except.bind])
      | some node =>
          cases node with
          | file _ | locked _ => exact absurd arrived (within.not_folder here rfl f)
          | folder g => exact .inl ⟨g, folderAt_eq_ok.2 ⟨rfl, here⟩⟩
  | cons step steps ih =>
      cases here : disk.root.at? start with
      | none => exact .inr (by simp [folderAt, walk, here, bind, Except.bind])
      | some node =>
          cases node with
          | file _ | locked _ =>
              obtain ⟨walked, arrived⟩ := folderAt_eq_ok.1 found
              obtain ⟨h, there⟩ := folder_of_walk walked arrived
              exact absurd there (within.not_folder here rfl h)
          | folder g =>
              obtain ⟨g', there⟩ := within.folder here
              rw [folderAt_cons there] at found
              rw [folderAt_cons here]
              cases step with
              | stay => exact ih found
              | up => exact ih found
              | down name =>
                  dsimp only at found ⊢
                  split at found
                  · cases found
                  · rename_i short
                    rw [if_neg short]
                    split at found
                    · split
                      · exact ih found
                      · exact .inr rfl
                    · cases found

/-- A path to a folder passes through folders. -/
theorem folderAt_of_isPrefix {f : Folder} {first : List Step} (isPrefix : first <+: steps)
    (found : disk.folderAt start steps = .ok (place, f)) :
    ∃ above g, disk.folderAt start first = .ok (above, g) := by
  obtain ⟨rest, rfl⟩ := isPrefix
  obtain ⟨walked, here⟩ := folderAt_eq_ok.1 found
  rw [walk_append] at walked
  cases reached : disk.walk start first with
  | error e => simp [reached, Except.bind] at walked
  | ok above =>
      rw [reached] at walked
      obtain ⟨g, there⟩ := folder_of_walk walked here
      exact ⟨above, g, folderAt_eq_ok.2 ⟨reached, there⟩⟩

/-! ## Making one folder -/

/-- A folder is made where all but the last step lead, under a name that is free. -/
theorem makeFolder_eq_ok (done : disk.makeFolder start steps = .ok made) :
    ∃ place parent name, disk.folderAt start steps.dropLast = .ok (place, parent) ∧
      steps.getLast? = some (.down name) ∧ ¬ Path.nameLimit < name.utf8ByteSize ∧
      parent.has name = false ∧
      made = disk.put place (Entries.insert name (.folder []) parent) := by
  unfold makeFolder at done
  cases found : disk.folderAt start steps.dropLast with
  | error e => simp [found, bind, Except.bind] at done
  | ok result =>
      obtain ⟨place, parent⟩ := result
      simp only [found, bind, Except.bind] at done
      split at done
      · rename_i name last
        split at done
        · cases done
        · rename_i short
          split at done
          · cases done
          · rename_i free
            cases done
            exact ⟨place, parent, name, rfl, last, short, by simpa using free, rfl⟩
      · cases done

theorem makeFolder_of_error {e : FileError}
    (missing : disk.folderAt start steps.dropLast = .error e) :
    disk.makeFolder start steps = .error e := by
  simp [makeFolder, missing, bind, Except.bind]

theorem within_makeFolder (done : disk.makeFolder start steps = .ok made) :
    disk.root.Within made.root := by
  obtain ⟨place, parent, name, found, -, -, free, rfl⟩ := makeFolder_eq_ok done
  have fresh := Folder.has_eq_false_iff.1 free
  exact Folder.within_put (folderAt_eq_ok.1 found).2 (Folder.within_insert fresh _)

/-- A folder that was made is there. -/
theorem folderAt_makeFolder (done : disk.makeFolder start steps = .ok made) :
    ∃ place f, made.folderAt start steps = .ok (place, f) := by
  obtain ⟨place, parent, name, found, last, short, free, rfl⟩ := makeFolder_eq_ok done
  have kept : parent.Keeps (Entries.insert name (.folder []) parent) := by
    apply Folder.keeps_of_get?
    intro other h there
    have different : other ≠ name := by
      rintro rfl
      rw [Folder.has_eq_false_iff.1 free] at there
      cases there
    rw [Entries.get?_insert, if_neg different, there]
  obtain ⟨walked, here⟩ := folderAt_eq_ok.1 found
  have again : (disk.put place (Entries.insert name (.folder []) parent)).walk start
      steps.dropLast = .ok place :=
    walk_of_keeps (Folder.keeps_put here kept) walked here
  have arrived := Folder.at?_put disk.root (Entries.insert name (.folder []) parent) place
  have nonempty : steps ≠ [] := by
    rintro rfl
    cases last
  have split : steps.dropLast ++ [.down name] = steps := by
    rw [List.getLast?_eq_some_getLast nonempty, Option.some.injEq] at last
    rw [← last, List.dropLast_concat_getLast]
  have present : Folder.has (Entries.insert name (.folder []) parent) name = true := by
    simp [Folder.has, Entries.get?_insert]
  refine ⟨place ++ [name], [], folderAt_eq_ok.2 ⟨?_, ?_⟩⟩
  · rw [← split, walk_append, again]
    show walk _ place [.down name] = _
    simp only [walk, put, arrived, if_neg short, if_pos present]
  · rw [put, Folder.at?_append_singleton arrived, Entries.get?_insert, if_pos rfl]

end Disk

end Retrieval
