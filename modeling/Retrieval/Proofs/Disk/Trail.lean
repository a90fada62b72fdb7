/-
# Retrieval.Proofs.Disk.Trail -- making folders may stop halfway

To make a folder, those above it are made first, one after the other.
`Disk.folderTrail` lists the disks that this passes through, so stopping at one of them
is what a crash can do.  The list is complete: it begins with the disk as it is, ends
with the disk that is reached, and from each disk to the next one folder is made
(`IsTrail`, `pathTrail_isTrail`).  So no file comes or goes or changes on the way
(`sameFiles_makePath`).

The headline is `makePath_of_mem_trail`: whoever stopped halfway and starts again reaches
the same disk.  The reason is that a trail only adds (`Folder.Within`).  A path that leads
to a folder in the end can, on the way there, fail in one manner only, by something that
is not there yet (`folderAt_of_within`), and that is what makes the folders above be made.
-/
import Mathlib.Data.List.Chain
import Retrieval.Proofs.Disk.Growth

namespace Retrieval

set_option autoImplicit false

namespace Path

theorem withoutStays_isPrefix (steps : List Step) : withoutStays steps <+: steps := by
  have suffix := List.dropWhile_suffix (l := steps.reverse) fun s => decide (s = .stay)
  have := List.reverse_prefix.2 suffix
  rwa [List.reverse_reverse] at this

/-- The steps to the folder above are a first part of all but the last step. -/
theorem parent_isPrefix (steps : List Step) : parent steps <+: steps.dropLast := by
  have whole : (withoutStays steps).dropLast <+: steps.dropLast := by
    obtain ⟨rest, split⟩ := withoutStays_isPrefix steps
    generalize withoutStays steps = first at split
    subst split
    cases rest with
    | nil => simp
    | cons step rest =>
        rw [List.dropLast_append_of_ne_nil (by simp)]
        exact (List.dropLast_prefix first).trans (List.prefix_append first _)
  exact (withoutStays_isPrefix _).trans whole

end Path

/-! ## Trails -/

/-- The disks lead from the first to the last, one operation after the other. -/
structure IsTrail (operation : Disk → Disk → Prop) (first last : Disk) (trail : List Disk) :
    Prop where
  head : trail.head? = some first
  last : trail.getLast? = some last
  chain : trail.IsChain operation

namespace IsTrail

variable {operation coarser : Disk → Disk → Prop} {a b c : Disk} {l m : List Disk}

theorem single (a : Disk) : IsTrail operation a a [a] := ⟨rfl, rfl, .singleton a⟩

theorem pair (done : operation a b) : IsTrail operation a b [a, b] :=
  ⟨rfl, rfl, .cons_cons done (.singleton b)⟩

/-- A trail goes on where another ends. -/
theorem append (s : IsTrail operation a b l) (t : IsTrail operation b c (b :: m)) :
    IsTrail operation a c (l ++ m) := by
  obtain ⟨head, last, chain⟩ := s
  obtain ⟨-, last', chain'⟩ := t
  have nonempty : l ≠ [] := by
    rintro rfl
    cases head
  constructor
  · rw [List.head?_append, head]
    rfl
  · rw [List.getLast?_append, last]
    rw [List.getLast?_cons] at last'
    rw [← last']
    cases m.getLast? <;> rfl
  · rw [List.isChain_cons] at chain'
    apply chain.append chain'.2
    intro x isLast y isFirst
    rw [last] at isLast
    cases isLast
    exact chain'.1 y isFirst

theorem mono (s : IsTrail operation a b l) (le : ∀ a b, operation a b → coarser a b) :
    IsTrail coarser a b l :=
  ⟨s.head, s.last, s.chain.imp le⟩

end IsTrail

namespace Disk

open Retrieval.Path (Step)

variable {disk crashed made : Disk} {start place : List String} {steps : List Step}

/-! ## Making folders -/

/-- What is left to do when the folders above are there: the folder itself is made,
unless it is there too. -/
def makeLast (reached : Disk) (start : List String) (steps : List Step) :
    Disk × Option FileError :=
  match reached.makeFolder start steps with
  | .ok made => (made, none)
  | .error e =>
      match reached.folderAt start steps with
      | .ok _ => (reached, none)
      | .error _ => (reached, some e)

/-- The disk with the folder itself, if it is made. -/
def lastMade (reached : Disk) (start : List String) (steps : List Step) : List Disk :=
  match reached.makeFolder start steps with
  | .ok made => [made]
  | .error _ => []

/-- The disks that making folders passes through, from the disk as it is on. -/
def folderTrail (disk : Disk) (start : List String) : Nat → List Step → List Disk
  | _, [] | 0, _ => [disk]
  | n + 1, steps =>
      match disk.makeFolder start steps with
      | .error .notFound =>
          disk.folderTrail start n (Path.parent steps) ++
            match disk.makeFolders start n (Path.parent steps) with
            | (_, some _) => []
            | (reached, none) => reached.lastMade start steps
      | _ => disk :: disk.lastMade start steps

/-- The ways that making folders takes, with what it comes to and its trail: there is
nothing to make, only the last folder is tried, or those above it are made first, which
fails or succeeds. -/
inductive Making (disk : Disk) (start : List String) :
    Nat → List Step → Disk × Option FileError → List Disk → Prop
  | nothing (n : Nat) : Making disk start n [] (disk, none) [disk]
  | exhausted (steps : List Step) : Making disk start 0 steps (disk, none) [disk]
  | last {n : Nat} {steps : List Step} (nonempty : steps ≠ [])
      (present : disk.makeFolder start steps ≠ .error .notFound) :
      Making disk start (n + 1) steps (disk.makeLast start steps)
        (disk :: disk.lastMade start steps)
  | blocked {n : Nat} {steps : List Step} {reached : Disk} {e : FileError} {trail : List Disk}
      (nonempty : steps ≠ []) (missing : disk.makeFolder start steps = .error .notFound)
      (above : Making disk start n (Path.parent steps) (reached, some e) trail) :
      Making disk start (n + 1) steps (reached, some e) trail
  | above {n : Nat} {steps : List Step} {reached : Disk} {trail : List Disk}
      (nonempty : steps ≠ []) (missing : disk.makeFolder start steps = .error .notFound)
      (above : Making disk start n (Path.parent steps) (reached, none) trail) :
      Making disk start (n + 1) steps (reached.makeLast start steps)
        (trail ++ reached.lastMade start steps)

theorem makeFolders_of_missing (missing : disk.makeFolder start steps = .error .notFound)
    (nonempty : steps ≠ []) (n : Nat) :
    disk.makeFolders start (n + 1) steps =
      match disk.makeFolders start n (Path.parent steps) with
      | (reached, some e) => (reached, some e)
      | (reached, none) => reached.makeLast start steps := by
  rw [makeFolders]
  · rw [missing]
    rfl
  · exact nonempty

theorem makeFolders_of_present (present : disk.makeFolder start steps ≠ .error .notFound)
    (nonempty : steps ≠ []) (n : Nat) :
    disk.makeFolders start (n + 1) steps = disk.makeLast start steps := by
  rw [makeFolders, makeLast]
  · cases result : disk.makeFolder start steps with
    | ok made => rfl
    | error e =>
        cases e
        case notFound => exact absurd result present
        all_goals rfl
  · exact nonempty

/-- **Making folders takes one of these ways.** -/
theorem making_makeFolders (disk : Disk) (start : List String) (n : Nat) (steps : List Step) :
    Making disk start n steps (disk.makeFolders start n steps)
      (disk.folderTrail start n steps) := by
  induction n generalizing steps with
  | zero =>
      have result : disk.makeFolders start 0 steps = (disk, none) := by cases steps <;> rfl
      have trail : disk.folderTrail start 0 steps = [disk] := by cases steps <;> rfl
      rw [result, trail]
      exact .exhausted steps
  | succ n ih =>
      by_cases nothing : steps = []
      · subst nothing
        exact .nothing _
      · by_cases missing : disk.makeFolder start steps = .error .notFound
        · have above := ih (Path.parent steps)
          have trail : disk.folderTrail start (n + 1) steps =
              disk.folderTrail start n (Path.parent steps) ++
                match disk.makeFolders start n (Path.parent steps) with
                | (_, some _) => []
                | (reached, none) => reached.lastMade start steps := by
            rw [folderTrail]
            · rw [missing]
            · exact nothing
          rw [makeFolders_of_missing missing nothing, trail]
          cases made : disk.makeFolders start n (Path.parent steps) with
          | mk reached failure =>
              rw [made] at above
              cases failure with
              | some e =>
                  rw [List.append_nil]
                  exact .blocked nothing missing above
              | none => exact .above nothing missing above
        · have trail : disk.folderTrail start (n + 1) steps =
              disk :: disk.lastMade start steps := by
            rw [folderTrail]
            · split
              · rename_i absent
                exact absurd absent missing
              · rfl
            · exact nothing
          rw [makeFolders_of_present missing nothing, trail]
          exact .last nothing missing

/-! ## The last folder -/

/-- When the last folder is there in the end, all above it are there before. -/
theorem folderAt_of_makeLast (done : disk.makeLast start steps = (made, none)) :
    ∃ place f, disk.folderAt start steps.dropLast = .ok (place, f) := by
  unfold makeLast at done
  split at done
  · rename_i result
    obtain ⟨place, parent, -, found, -⟩ := makeFolder_eq_ok result
    exact ⟨place, parent, found⟩
  · split at done
    · rename_i result found
      obtain ⟨place, f⟩ := result
      exact folderAt_of_isPrefix (List.dropLast_prefix steps) found
    · cases done

theorem within_makeLast (disk : Disk) (start : List String) (steps : List Step) :
    disk.root.Within (disk.makeLast start steps).1.root := by
  unfold makeLast
  split
  · rename_i done
    exact within_makeFolder done
  · split
    · exact Folder.Within.refl _
    · exact Folder.Within.refl _

/-- The last folder is made, and is there then, or the disk stays as it is. -/
theorem lastMade_cases (disk : Disk) (start : List String) (steps : List Step) :
    (∃ made, disk.makeFolder start steps = .ok made ∧ disk.lastMade start steps = [made] ∧
      disk.makeLast start steps = (made, none)) ∨
    (disk.lastMade start steps = [] ∧ (disk.makeLast start steps).1 = disk) := by
  unfold lastMade makeLast
  cases disk.makeFolder start steps with
  | ok made => exact .inl ⟨made, rfl, rfl, rfl⟩
  | error e =>
      refine .inr ⟨rfl, ?_⟩
      dsimp only
      split
      · rfl
      · rfl

theorem lastMade_isTrail (disk : Disk) (start : List String) (steps : List Step) :
    IsTrail (fun a b => ∃ steps, a.makeFolder start steps = .ok b) disk
      (disk.makeLast start steps).1 (disk :: disk.lastMade start steps) := by
  rcases lastMade_cases disk start steps with ⟨made, done, trail, result⟩ | ⟨trail, result⟩
  · rw [trail, result]
    exact .pair ⟨steps, done⟩
  · rw [trail, result]
    exact .single disk

theorem working_of_lastMade {reached : Disk} (member : crashed ∈ reached.lastMade start steps) :
    crashed.working = reached.working := by
  rcases lastMade_cases reached start steps with ⟨made, done, more, -⟩ | ⟨more, -⟩
  · rw [more, List.mem_singleton] at member
    subst member
    obtain ⟨place, parent, name, -, -, -, -, rfl⟩ := makeFolder_eq_ok done
    rfl
  · rw [more] at member
    cases member

/-! ## The trail -/

namespace Making

variable {n : Nat} {result : Disk × Option FileError} {trail : List Disk}

theorem within (making : Making disk start n steps result trail) :
    disk.root.Within result.1.root := by
  induction making with
  | nothing n => exact Folder.Within.refl _
  | exhausted steps => exact Folder.Within.refl _
  | last nonempty present => exact within_makeLast disk start _
  | blocked nonempty missing above ih => exact ih
  | above nonempty missing above ih => exact ih.trans (within_makeLast _ start _)

/-- **Making folders makes one at a time,** from the disk as it is to the disk it reaches. -/
theorem isTrail (making : Making disk start n steps result trail) :
    IsTrail (fun a b => ∃ steps, a.makeFolder start steps = .ok b) disk result.1 trail := by
  induction making with
  | nothing n => exact .single disk
  | exhausted steps => exact .single disk
  | @last n steps nonempty present => exact lastMade_isTrail disk start steps
  | blocked nonempty missing above ih => exact ih
  | @above n steps reached trail nonempty missing above ih =>
      exact ih.append (lastMade_isTrail reached start steps)

/-- A disk on which the last folder was made has it, so nothing is left to do. -/
theorem makeFolders_of_lastMade {reached : Disk}
    (member : crashed ∈ reached.lastMade start steps) (n : Nat) :
    crashed.makeFolders start n steps = reached.makeLast start steps := by
  rcases lastMade_cases reached start steps with ⟨made, done, more, result⟩ | ⟨more, -⟩
  · rw [more, List.mem_singleton] at member
    subst member
    obtain ⟨place, f, found⟩ := folderAt_makeFolder done
    rw [makeFolders_of_folderAt found, result]
  · rw [more] at member
    cases member

/-- **Making folders that was stopped halfway is taken up again** and reaches the same
disk. -/
theorem resumes (making : Making disk start n steps result trail) (succeeds : result.2 = none)
    (member : crashed ∈ trail) : crashed.makeFolders start n steps = result := by
  induction making with
  | nothing n =>
      rw [List.mem_singleton.1 member]
      cases n <;> rfl
  | exhausted steps =>
      rw [List.mem_singleton.1 member]
      cases steps <;> rfl
  | @last n steps nonempty present =>
      rcases List.mem_cons.1 member with rfl | late
      · exact makeFolders_of_present present nonempty n
      · exact makeFolders_of_lastMade late _
  | blocked nonempty missing above ih => cases succeeds
  | @above n steps reached trail nonempty missing above ih =>
      rcases List.mem_append.1 member with early | late
      · have again := ih rfl early
        cases result : reached.makeLast start steps with
        | mk made failure =>
            rw [result] at succeeds
            cases succeeds
            obtain ⟨place, f, found⟩ := folderAt_of_makeLast result
            have within : crashed.root.Within reached.root := by
              have within := (making_makeFolders crashed start n (Path.parent steps)).within
              rwa [again] at within
            rcases folderAt_of_within within found with ⟨g, there⟩ | absent
            · -- the folders above are there, so the crash came when they had been made
              obtain ⟨_, _, upper⟩ := folderAt_of_isPrefix (Path.parent_isPrefix steps) there
              rw [makeFolders_of_folderAt upper] at again
              cases again
              by_cases missing : crashed.makeFolder start steps = .error .notFound
              · rw [makeFolders_of_missing missing nonempty, makeFolders_of_folderAt upper]
                exact result
              · rw [makeFolders_of_present missing nonempty]
                exact result
            · rw [makeFolders_of_missing (makeFolder_of_error absent) nonempty, again]
              exact result
      · exact makeFolders_of_lastMade late _

/-- Making folders leaves the working folder where it is. -/
theorem working_eq (making : Making disk start n steps result trail) :
    ∀ passed ∈ trail, passed.working = disk.working := by
  induction making with
  | nothing n =>
      intro passed member
      rw [List.mem_singleton.1 member]
  | exhausted steps =>
      intro passed member
      rw [List.mem_singleton.1 member]
  | last nonempty present =>
      intro passed member
      rcases List.mem_cons.1 member with rfl | late
      · rfl
      · exact working_of_lastMade late
  | blocked nonempty missing above ih => exact ih
  | @above n steps reached trail nonempty missing above ih =>
      intro passed member
      rcases List.mem_append.1 member with early | late
      · exact ih passed early
      · rw [working_of_lastMade late]
        exact ih reached (List.mem_of_getLast? above.isTrail.last)

end Making

/-! ## Paths -/

/-- The disks that making the folder of a path passes through, from the disk as it is on. -/
def pathTrail (disk : Disk) (path : String) : List Disk :=
  if path.isEmpty then [disk]
  else
    match Path.fault? path with
    | some _ => [disk]
    | none => disk.folderTrail (disk.start path) (Path.steps path).length (Path.steps path)

theorem pathTrail_isTrail (disk : Disk) (path : String) :
    IsTrail (fun a b => ∃ start steps, a.makeFolder start steps = .ok b) disk
      (disk.makePath path).1 (disk.pathTrail path) := by
  unfold pathTrail makePath
  split
  · exact .single disk
  · cases Path.fault? path with
    | some e => exact .single disk
    | none =>
      refine (making_makeFolders disk (disk.start path) (Path.steps path).length
        (Path.steps path)).isTrail.mono ?_
      rintro a b ⟨steps, made⟩
      exact ⟨_, steps, made⟩

/-- **Making the folder of a path that was stopped halfway is taken up again** and reaches
the same disk. -/
theorem makePath_of_mem_trail {path : String} (done : disk.makePath path = (made, none))
    (member : crashed ∈ disk.pathTrail path) : crashed.makePath path = (made, none) := by
  unfold pathTrail at member
  unfold makePath at done ⊢
  split
  · rename_i empty
    rw [if_pos empty] at done member
    rwa [List.mem_singleton.1 member]
  · rename_i nonempty
    rw [if_neg nonempty] at done member
    cases fault : Path.fault? path with
    | some e =>
        rw [fault] at done
        cases done
    | none =>
        rw [fault] at done member
        dsimp only at done member ⊢
        have making := making_makeFolders disk (disk.start path) (Path.steps path).length
          (Path.steps path)
        have start : crashed.start path = disk.start path := by
          rw [Disk.start, Disk.start, making.working_eq crashed member]
        rw [start, making.resumes (congrArg Prod.snd done) member, done]

end Disk

end Retrieval
