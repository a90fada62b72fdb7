/-
# Retrieval.Proofs.Disk.File -- a file that was written is read

Writing puts a file into the folder that the path of the file leads to.  That folder is
still where it was, and the path leads through it to the file, so what is read afterwards
is what was written (`Disk.read_write`).  Of two files that are written to one path only the
second counts (`Disk.write_write`).

A path to a file can be written to, since its last step is the name of the file
(`Disk.exists_write_of_read`).
-/
import Retrieval.Proofs.Disk.Folder
import Retrieval.Proofs.Disk.Lookup

namespace Retrieval

set_option autoImplicit false

namespace Folder

theorem write_eq_ok {f g : Folder} {name : String} {content : Bytes}
    (done : f.write name content = .ok g) :
    f.IsFile name ∧ g = Entries.insert name (.file content) f := by
  by_cases isFile : f.IsFile name
  · rw [write_of_isFile isFile] at done
    exact ⟨isFile, (Except.ok.inj done).symm⟩
  · obtain ⟨cause, refused⟩ := exists_error_of_write isFile content
    rw [refused] at done
    cases done

/-- A file is where it was put. -/
theorem get?_file (f : Folder) (name : String) (content : Bytes) :
    Entries.get? name (Entries.insert name (.file content) f) = some (.file content) := by
  rw [Entries.get?_insert, if_pos rfl]

/-- Writing a file takes no folder away. -/
theorem keeps_write {f g : Folder} {name : String} {content : Bytes}
    (done : f.write name content = .ok g) : f.Keeps g := by
  obtain ⟨isFile, rfl⟩ := write_eq_ok done
  refine keeps_of_get? fun other below found => ?_
  rw [Entries.get?_insert, if_neg, found]
  rintro rfl
  exact isFile.not_folder below found

end Folder

namespace Disk

variable {disk after : Disk} {path : String} {content : Bytes}

theorem parentOf_eq_ok {place : List String} {parent : Folder} {name : String} :
    disk.parentOf path = .ok (place, parent, name) ↔
      Path.fault? path = none ∧
      disk.folderAt (disk.start path) (Path.steps path).dropLast = .ok (place, parent) ∧
      (Path.steps path).getLast? = some (.down name) ∧
      ¬ Path.nameLimit < name.utf8ByteSize := by
  unfold parentOf
  constructor
  · intro found
    split at found
    · cases found
    · rename_i sound
      dsimp only at found
      cases above : disk.folderAt (disk.start path) (Path.steps path).dropLast with
      | error e =>
          rw [above] at found
          cases found
      | ok pair =>
          obtain ⟨reached, folder⟩ := pair
          rw [above] at found
          simp only [bind, Except.bind] at found
          split at found
          · rename_i last isLast
            split at found
            · cases found
            · rename_i short
              cases found
              exact ⟨sound, rfl, isLast, short⟩
          · cases found
  · rintro ⟨sound, above, isLast, short⟩
    rw [sound]
    simp only [above, isLast, bind, Except.bind, if_neg short]

/-- A path leads to what its last name stands for, in the folder that was put where the
path makes things. -/
theorem find_put {place : List String} {parent folder : Folder} {name : String} {node : Node}
    (found : disk.parentOf path = .ok (place, parent, name))
    (noSlash : ¬ Path.endsInSlash path = true) (kept : parent.Keeps folder)
    (present : Entries.get? name folder = some node) :
    (disk.put place folder).find path = .ok node := by
  obtain ⟨sound, above, isLast, short⟩ := parentOf_eq_ok.1 found
  obtain ⟨walked, here⟩ := folderAt_eq_ok.1 above
  obtain ⟨first, steps⟩ := List.getLast?_eq_some_iff.1 isLast
  rw [steps, List.dropLast_concat] at walked
  have there : (disk.put place folder).root.at? place = some (.folder folder) :=
    Folder.at?_put disk.root folder place
  have rewalked : (disk.put place folder).walk ((disk.put place folder).start path)
      (Path.stepsInto path) = .ok (place ++ [name]) := by
    have again : (disk.put place folder).walk (disk.start path) first = .ok place :=
      walk_of_keeps (Folder.keeps_put here kept) walked here
    have has : folder.has name = true := by rw [Folder.has, present, Option.isSome_some]
    rw [Path.stepsInto, if_neg noSlash, List.append_nil, steps, walk_append]
    change Except.bind ((disk.put place folder).walk (disk.start path) first) _ = _
    rw [again]
    simp only [Except.bind, walk, there, if_neg short, has, if_true]
  unfold find
  rw [sound]
  simp only [bind, Except.bind, rewalked, Folder.at?_append_singleton there, present]

/-- What a write does: it puts a file into the folder that the path names it in. -/
theorem write_eq_ok :
    disk.write path content = .ok after ↔
      ∃ place parent name, disk.parentOf path = .ok (place, parent, name) ∧
        ¬ Path.endsInSlash path = true ∧ parent.IsFile name ∧
        after = disk.put place (Entries.insert name (.file content) parent) := by
  cases found : disk.parentOf path with
  | error e => simp [write, found, bind, Except.bind]
  | ok triple =>
      obtain ⟨place, parent, name⟩ := triple
      rw [write, found]
      simp only [bind, Except.bind]
      constructor
      · intro written
        split at written
        · cases written
        · rename_i noSlash
          cases put : parent.write name content with
          | error e =>
              rw [put] at written
              cases written
          | ok folder =>
              rw [put] at written
              cases written
              obtain ⟨isFile, rfl⟩ := Folder.write_eq_ok put
              exact ⟨place, parent, name, rfl, noSlash, isFile, rfl⟩
      · rintro ⟨_, _, _, same, noSlash, isFile, rfl⟩
        cases same
        rw [if_neg noSlash, Folder.write_of_isFile isFile]
        rfl

/-- **What is read is what was written.** -/
theorem read_write (written : disk.write path content = .ok after) :
    after.read path = .ok content := by
  obtain ⟨place, parent, name, found, noSlash, isFile, rfl⟩ := write_eq_ok.1 written
  have kept := Folder.keeps_write (Folder.write_of_isFile isFile content)
  rw [read, find_put found noSlash kept (Folder.get?_file parent name content)]
  rfl

/-- A text that was written is read. -/
theorem readText_write {text : List Char}
    (written : disk.write path (Bytes.ofText text) = .ok after) :
    after.readText path = .ok text := by
  rw [readText, read_write written]
  simp only [bind, Except.bind, Bytes.text?_ofText]

/-- **Of two files that are written to one path only the second counts.** -/
theorem write_write {other : Bytes} (written : disk.write path content = .ok after) :
    after.write path other = disk.write path other := by
  obtain ⟨place, parent, name, found, noSlash, isFile, rfl⟩ := write_eq_ok.1 written
  obtain ⟨sound, above, isLast, short⟩ := parentOf_eq_ok.1 found
  have kept := Folder.keeps_write (Folder.write_of_isFile isFile content)
  have again : (disk.put place (Entries.insert name (.file content) parent)).parentOf path =
      .ok (place, Entries.insert name (.file content) parent, name) :=
    parentOf_eq_ok.2 ⟨sound, folderAt_put above kept, isLast, short⟩
  have still := Folder.isFile_of_file (Folder.get?_file parent name content)
  have first : disk.write path other =
      .ok (disk.put place (Entries.insert name (.file other) parent)) :=
    write_eq_ok.2 ⟨_, _, _, found, noSlash, isFile, rfl⟩
  rw [first, write_eq_ok]
  refine ⟨_, _, _, again, noSlash, still, ?_⟩
  rw [put_put, Entries.insert_insert]

/-! ## Paths to files -/

/-- What is at a path is at the end of its steps. -/
theorem find_eq_ok {node : Node} :
    disk.find path = .ok node ↔
      Path.fault? path = none ∧ ∃ place,
        disk.walk (disk.start path) (Path.stepsInto path) = .ok place ∧
        disk.root.at? place = some node := by
  unfold find
  cases Path.fault? path with
  | some e => simp
  | none =>
      cases walked : disk.walk (disk.start path) (Path.stepsInto path) with
      | error e => simp [bind, Except.bind]
      | ok place => cases there : disk.root.at? place <;> simp [bind, Except.bind, there]

theorem read_eq_ok : disk.read path = .ok content ↔ disk.find path = .ok (.file content) := by
  unfold read
  cases disk.find path with
  | error e => simp [bind, Except.bind]
  | ok node => cases node <;> simp [bind, Except.bind]

/-- Parts that are all empty are those of a text of slashes. -/
theorem eq_slash_of_parts {text : List Char}
    (none : (Path.parts text).filter (fun part => !part.isEmpty) = []) : ∀ c ∈ text, c = '/' := by
  induction text with
  | nil => nofun
  | cons c text ih =>
      unfold Path.parts at none
      split at none
      · rename_i slash
        exact List.forall_mem_cons.2 ⟨slash, ih (by simpa using none)⟩
      · split at none <;> simp at none

/-- A text that is read is that of a file. -/
theorem readText_eq_ok {text : List Char} :
    disk.readText path = .ok text ↔
      ∃ content, disk.read path = .ok content ∧ content.text? = some text := by
  unfold readText
  cases disk.read path with
  | error e => simp [bind, Except.bind]
  | ok content => cases isText : content.text? <;> simp [bind, Except.bind, isText]

/-- A path without steps is made of slashes. -/
theorem endsInSlash_of_steps_nil (sound : Path.fault? path = none) (none : Path.steps path = []) :
    Path.endsInSlash path = true := by
  have slashes := eq_slash_of_parts (List.map_eq_nil_iff.1 none)
  have nonempty : path.toList ≠ [] := by
    intro empty
    have isEmpty : path.isEmpty = true := by simpa using empty
    unfold Path.fault? at sound
    rw [empty, isEmpty] at sound
    simp at sound
  rw [Path.endsInSlash, List.getLast?_eq_some_getLast nonempty,
    slashes _ (List.getLast_mem nonempty)]
  rfl

/-- A step that leads to a file goes down to its name. -/
theorem down_of_file {start place : List String} {steps : List Path.Step} {step : Path.Step}
    (walked : disk.walk start (steps ++ [step]) = .ok place)
    (here : disk.root.at? place = some (.file content)) :
    ∃ above parent name, disk.folderAt start steps = .ok (above, parent) ∧ step = .down name ∧
      ¬ Path.nameLimit < name.utf8ByteSize ∧ Entries.get? name parent = some (.file content) := by
  rw [walk_append] at walked
  cases reached : disk.walk start steps with
  | error e => simp [reached, Except.bind] at walked
  | ok above =>
      rw [reached] at walked
      change disk.walk above [step] = .ok place at walked
      rw [walk] at walked
      cases there : disk.root.at? above with
      | none => simp [there] at walked
      | some node =>
          cases node with
          | file _ | locked _ => simp [there] at walked
          | folder parent =>
              rw [there] at walked
              cases step with
              | stay =>
                  cases walked
                  cases there.symm.trans here
              | up =>
                  cases walked
                  obtain ⟨h, folder⟩ := Folder.at?_dropLast there
                  cases folder.symm.trans here
              | down name =>
                  dsimp only at walked
                  split at walked
                  · cases walked
                  · rename_i short
                    split at walked
                    · cases walked
                      rw [Folder.at?_append_singleton there] at here
                      exact ⟨above, parent, name, folderAt_eq_ok.2 ⟨reached, there⟩, rfl, short,
                        here⟩
                    · cases walked

/-- **What leads to a file ends in its name.** -/
theorem parentOf_of_find (found : disk.find path = .ok (.file content)) :
    ∃ place parent name, disk.parentOf path = .ok (place, parent, name) ∧
      ¬ Path.endsInSlash path = true ∧ parent.IsFile name := by
  obtain ⟨sound, place, walked, here⟩ := find_eq_ok.1 found
  by_cases slash : Path.endsInSlash path = true
  · -- a slash at the end is a step that stays
    rw [Path.stepsInto, if_pos slash] at walked
    obtain ⟨_, _, name, _, stays, _⟩ := down_of_file walked here
    cases stays
  · rw [Path.stepsInto, if_neg slash, List.append_nil] at walked
    have nonempty : Path.steps path ≠ [] := fun none => slash (endsInSlash_of_steps_nil sound none)
    rw [← List.dropLast_concat_getLast nonempty] at walked
    obtain ⟨above, parent, name, isParent, last, short, present⟩ := down_of_file walked here
    refine ⟨above, parent, name, parentOf_eq_ok.2 ⟨sound, isParent, ?_, short⟩, slash,
      Folder.isFile_of_file present⟩
    rw [List.getLast?_eq_some_getLast nonempty, last]

/-- **Where a file can be read, one can be written.** -/
theorem exists_write_of_read (found : disk.read path = .ok content) (other : Bytes) :
    ∃ after, disk.write path other = .ok after := by
  obtain ⟨place, parent, name, isParent, noSlash, isFile⟩ :=
    parentOf_of_find (read_eq_ok.1 found)
  exact ⟨_, write_eq_ok.2 ⟨place, parent, name, isParent, noSlash, isFile, rfl⟩⟩

end Disk

end Retrieval
