/-
# Retrieval.Proofs.Disk.Lookup -- changing a folder where it is

A collection works inside one folder of a disk, which it finds by a path, changes
and puts back.  The path still leads there afterwards (`Disk.folder_put`), because
nothing was done to the folders that it passes through: `Folder.Keeps` says that one
tree has a folder wherever another has one, and that is all that following a path
depends on (`Disk.walk_of_keeps`).

Making a folder that is there already changes nothing (`Disk.makePath_of_folder`).
-/
import Retrieval.Disk.Lookup
import Retrieval.Proofs.Entries

namespace Retrieval

set_option autoImplicit false

namespace Folder

/-! ## Places -/

theorem at?_cons_eq_folder {f h : Folder} {name : String} {rest : List String} :
    f.at? (name :: rest) = some (.folder h) ↔
      ∃ g, Entries.get? name f = some (.folder g) ∧ at? g rest = some (.folder h) := by
  cases found : Entries.get? name f with
  | none => simp [at?, found]
  | some node =>
      cases node with
      | file _ | locked _ => cases rest <;> simp [at?, found]
      | folder g => cases rest <;> simp [at?, found]

/-- The node one step further down. -/
theorem at?_append_singleton {f g : Folder} {place : List String} {name : String}
    (here : f.at? place = some (.folder g)) :
    f.at? (place ++ [name]) = Entries.get? name g := by
  induction place generalizing f with
  | nil =>
      cases here
      rw [List.nil_append]
      cases found : Entries.get? name g with
      | none => simp [at?, found]
      | some node => simp [at?, found]
  | cons first rest ih =>
      obtain ⟨below, found, there⟩ := at?_cons_eq_folder.1 here
      rw [List.cons_append, ← ih there]
      cases rest <;> simp [at?, found]

/-- A way down to a folder passes through folders. -/
theorem at?_dropLast {f g : Folder} {place : List String} (here : f.at? place = some (.folder g)) :
    ∃ h, f.at? place.dropLast = some (.folder h) := by
  induction place generalizing f with
  | nil => exact ⟨g, here⟩
  | cons name rest ih =>
      cases rest with
      | nil => exact ⟨f, rfl⟩
      | cons next more =>
          obtain ⟨below, found, there⟩ := at?_cons_eq_folder.1 here
          obtain ⟨h, above⟩ := ih there
          exact ⟨h, at?_cons_eq_folder.2 ⟨below, found, above⟩⟩

/-- Wherever there is a folder in the one tree, there is one in the other. -/
def Keeps (f g : Folder) : Prop :=
  ∀ place h, f.at? place = some (.folder h) → ∃ h', g.at? place = some (.folder h')

theorem Keeps.refl (f : Folder) : f.Keeps f := fun _ h found => ⟨h, found⟩

theorem Keeps.trans {f g h : Folder} (fg : f.Keeps g) (gh : g.Keeps h) : f.Keeps h := by
  intro place below found
  obtain ⟨between, there⟩ := fg place below found
  exact gh place between there

/-- A folder keeps what is below it when its own folders stay. -/
theorem keeps_of_get? {f g : Folder}
    (same : ∀ name h, Entries.get? name f = some (.folder h) →
      Entries.get? name g = some (.folder h)) : f.Keeps g := by
  intro place h found
  cases place with
  | nil => exact ⟨g, rfl⟩
  | cons name rest =>
      obtain ⟨below, first, there⟩ := at?_cons_eq_folder.1 found
      exact ⟨h, at?_cons_eq_folder.2 ⟨below, same name below first, there⟩⟩

/-- A folder is found where it was put. -/
theorem at?_put (f g : Folder) (place : List String) :
    (f.put g place).at? place = some (.folder g) := by
  induction place generalizing f with
  | nil => rfl
  | cons name rest ih =>
      rw [at?_cons_eq_folder]
      simp only [put, Entries.get?_insert, if_true, Option.some.injEq, Node.folder.injEq,
        exists_eq_left']
      exact ih _

/-- Of two folders that are put in one place only the second counts. -/
theorem put_put (f g h : Folder) (place : List String) :
    (f.put g place).put h place = f.put h place := by
  induction place generalizing f with
  | nil => rfl
  | cons name rest ih => simp only [put, Entries.get?_insert, if_true, Entries.insert_insert, ih]

/-- The first name of a way down leads to a folder, and the rest of the way goes on there. -/
theorem at?_cons_of_folder {f g : Folder} {name : String} {rest : List String}
    (found : Entries.get? name f = some (.folder g)) (further : rest ≠ []) :
    f.at? (name :: rest) = g.at? rest := by
  obtain ⟨next, more, rfl⟩ := List.exists_cons_of_ne_nil further
  simp [at?, found]

/-- A way down depends on what its first name leads to, and on nothing else. -/
theorem at?_cons_congr {f g : Folder} {name : String}
    (same : Entries.get? name f = Entries.get? name g) (rest : List String) :
    f.at? (name :: rest) = g.at? (name :: rest) := by
  unfold at?
  rw [same]

/-- **What is where, after a folder was put in the place of another:** from that place on what
is in the new folder, on the way to it folders as before, and elsewhere what was there. -/
theorem at?_put_cases {f old : Folder} {place : List String}
    (here : f.at? place = some (.folder old)) (g : Folder) (other : List String) :
    (∃ rest, f.at? other = old.at? rest ∧ (f.put g place).at? other = g.at? rest) ∨
    (∃ h h', f.at? other = some (.folder h) ∧ (f.put g place).at? other = some (.folder h')) ∨
    (f.put g place).at? other = f.at? other := by
  induction place generalizing f other with
  | nil =>
      cases here
      exact .inl ⟨other, rfl, rfl⟩
  | cons name rest ih =>
      obtain ⟨below, found, there⟩ := at?_cons_eq_folder.1 here
      have put : f.put g (name :: rest) =
          Entries.insert name (.folder (Folder.put below g rest)) f := by
        simp [Folder.put, found]
      cases other with
      | nil => exact .inr (.inl ⟨_, _, rfl, rfl⟩)
      | cons first more =>
          by_cases same : first = name
          · subst same
            have entered : Entries.get? first (f.put g (first :: rest)) =
                some (.folder (Folder.put below g rest)) := by
              rw [put, Entries.get?_insert, if_pos rfl]
            by_cases further : more = []
            · subst further
              refine .inr (.inl ⟨below, Folder.put below g rest, ?_, ?_⟩)
              · simp [at?, found]
              · simp [at?, entered]
            · rw [at?_cons_of_folder found further, at?_cons_of_folder entered further]
              exact ih there more
          · refine .inr (.inr (at?_cons_congr ?_ more))
            rw [put, Entries.get?_insert, if_neg same]

/-- Putting a folder in the place of one that it keeps, the tree keeps all its folders. -/
theorem keeps_put {f g old : Folder} {place : List String}
    (here : f.at? place = some (.folder old)) (kept : old.Keeps g) : f.Keeps (f.put g place) := by
  intro other h isFolder
  rcases at?_put_cases here g other with ⟨rest, before, after⟩ | ⟨_, h', _, after⟩ | same
  · rw [after]
    exact kept rest h (before ▸ isFolder)
  · exact ⟨h', after⟩
  · exact ⟨h, same ▸ isFolder⟩

end Folder

namespace Disk

open Retrieval.Path (Step)

variable {disk : Disk} {start place : List String} {steps : List Step}

/-! ## Following paths -/

theorem walk_append (disk : Disk) (start : List String) (s t : List Step) :
    disk.walk start (s ++ t) = (disk.walk start s).bind fun place => disk.walk place t := by
  induction s generalizing start with
  | nil => rfl
  | cons step s ih =>
      simp only [List.cons_append, walk]
      cases disk.root.at? start with
      | none => rfl
      | some node =>
          cases node with
          | file _ | locked _ => rfl
          | folder f =>
              cases step with
              | stay => exact ih start
              | up => exact ih start.dropLast
              | down name =>
                  dsimp only
                  split
                  · rfl
                  · split
                    · exact ih (start ++ [name])
                    · rfl

/-- A path is followed from a folder, unless it ends where it starts. -/
theorem folder_of_walk {f : Folder} (walked : disk.walk start steps = .ok place)
    (here : disk.root.at? place = some (.folder f)) :
    ∃ g, disk.root.at? start = some (.folder g) := by
  cases steps with
  | nil =>
      cases walked
      exact ⟨f, here⟩
  | cons step steps =>
      cases found : disk.root.at? start with
      | none => simp [walk, found] at walked
      | some node =>
          cases node with
          | file _ | locked _ => simp [walk, found] at walked
          | folder g => exact ⟨g, rfl⟩

/-- **Following a path depends on folders only.** -/
theorem walk_of_keeps {other : Disk} {f : Folder} (kept : disk.root.Keeps other.root)
    (walked : disk.walk start steps = .ok place)
    (here : disk.root.at? place = some (.folder f)) : other.walk start steps = .ok place := by
  induction steps generalizing start with
  | nil => exact walked
  | cons step steps ih =>
      obtain ⟨g, found⟩ := folder_of_walk walked here
      obtain ⟨g', found'⟩ := kept start g found
      simp only [walk, found] at walked
      simp only [walk, found']
      cases step with
      | stay => exact ih walked
      | up => exact ih walked
      | down name =>
          dsimp only at walked ⊢
          split at walked
          · cases walked
          · rename_i short
            split at walked
            · obtain ⟨h, next⟩ := folder_of_walk walked here
              obtain ⟨h', next'⟩ := kept _ h next
              rw [Folder.at?_append_singleton found'] at next'
              have present : Folder.has g' name = true := by simp [Folder.has, next']
              rw [if_neg short, if_pos present]
              exact ih walked
            · cases walked

theorem folderAt_eq_ok {f : Folder} :
    disk.folderAt start steps = .ok (place, f) ↔
      disk.walk start steps = .ok place ∧ disk.root.at? place = some (.folder f) := by
  unfold folderAt
  cases walked : disk.walk start steps with
  | error e => simp [bind, Except.bind]
  | ok reached =>
      simp only [bind, Except.bind]
      cases found : disk.root.at? reached with
      | none =>
          simp only [reduceCtorEq, Except.ok.injEq, false_iff, not_and]
          rintro rfl
          simp [found]
      | some node =>
          cases node with
          | file _ | locked _ =>
              simp only [reduceCtorEq, Except.ok.injEq, false_iff, not_and]
              rintro rfl
              simp [found]
          | folder g =>
              simp only [Except.ok.injEq, Prod.mk.injEq]
              constructor
              · rintro ⟨rfl, rfl⟩
                exact ⟨rfl, found⟩
              · rintro ⟨rfl, there⟩
                rw [found] at there
                cases there
                exact ⟨rfl, rfl⟩

/-- **Steps lead to the same place after the folder there was changed.** -/
theorem folderAt_put {f g : Folder} (found : disk.folderAt start steps = .ok (place, f))
    (kept : f.Keeps g) : (disk.put place g).folderAt start steps = .ok (place, g) := by
  obtain ⟨walked, here⟩ := folderAt_eq_ok.1 found
  exact folderAt_eq_ok.2
    ⟨walk_of_keeps (Folder.keeps_put here kept) walked here, Folder.at?_put _ _ _⟩

/-- A path leads to the same place after the folder there was changed. -/
theorem folder_put {path : String} {f g : Folder} (found : disk.folder path = .ok (place, f))
    (kept : f.Keeps g) : (disk.put place g).folder path = .ok (place, g) :=
  folderAt_put found kept

theorem put_put (disk : Disk) (place : List String) (g h : Folder) :
    (disk.put place g).put place h = disk.put place h := by
  simp only [put, Folder.put_put]

/-! ## Folders that are there -/

/-- The folder that the last step of a path is made in. -/
theorem folderAt_dropLast {f : Folder} (found : disk.folderAt start steps = .ok (place, f))
    (nonempty : steps ≠ []) :
    ∃ above parent, disk.folderAt start steps.dropLast = .ok (above, parent) ∧
      ∀ name, steps.getLast? = some (.down name) →
        ¬ Path.nameLimit < name.utf8ByteSize ∧ parent.has name = true := by
  obtain ⟨walked, here⟩ := folderAt_eq_ok.1 found
  rw [← List.dropLast_concat_getLast nonempty, walk_append] at walked
  cases reached : disk.walk start steps.dropLast with
  | error e => simp [reached, Except.bind] at walked
  | ok above =>
      rw [reached] at walked
      obtain ⟨parent, there⟩ := folder_of_walk walked here
      refine ⟨above, parent, folderAt_eq_ok.2 ⟨reached, there⟩, ?_⟩
      intro name last
      have step : steps.getLast nonempty = .down name := by
        rw [List.getLast?_eq_some_getLast nonempty] at last
        exact Option.some.inj last
      simp only [Except.bind, step, walk, there] at walked
      split at walked
      · cases walked
      · rename_i short
        split at walked
        · rename_i present
          exact ⟨short, present⟩
        · cases walked

theorem makeFolder_of_folderAt {f : Folder} (found : disk.folderAt start steps = .ok (place, f))
    (nonempty : steps ≠ []) : disk.makeFolder start steps = .error .alreadyExists := by
  obtain ⟨above, parent, there, last⟩ := folderAt_dropLast found nonempty
  simp only [makeFolder, there, bind, Except.bind]
  split
  · rename_i name isLast
    obtain ⟨short, present⟩ := last name isLast
    rw [if_neg short, if_pos present]
  · rfl

/-- Folders that are there need not be made. -/
theorem makeFolders_of_folderAt {f : Folder} (found : disk.folderAt start steps = .ok (place, f))
    (n : Nat) : disk.makeFolders start n steps = (disk, none) := by
  cases steps with
  | nil => cases n <;> rfl
  | cons step rest =>
      cases n with
      | zero => rfl
      | succ n =>
          rw [makeFolders, makeFolder_of_folderAt found (by simp)]
          · dsimp only
            rw [found]
          · simp

/-- **Making a folder that is there changes nothing.** -/
theorem makePath_of_folder {path : String} {f : Folder}
    (found : disk.folder path = .ok (place, f)) (sound : path = "" ∨ Path.fault? path = none) :
    disk.makePath path = (disk, none) := by
  unfold makePath
  split
  · rfl
  · rename_i notEmpty
    have noFault : Path.fault? path = none := by
      refine sound.resolve_left fun empty => notEmpty ?_
      rw [empty]
      rfl
    rw [noFault]
    exact makeFolders_of_folderAt found _

end Disk

end Retrieval
