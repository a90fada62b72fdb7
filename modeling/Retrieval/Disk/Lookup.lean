/-
# Retrieval.Disk.Lookup -- files and folders by path

A disk is a tree of folders, one of which is the working folder.  Every name on the
way of a path has to be there and to be a folder, also when `..` takes the way back;
the root is above itself.

What a path leads to is found by following all its steps.  What is to be made is
named by the last of them, which then has to be a name.
-/
import Retrieval.Disk.Path

namespace Retrieval

set_option autoImplicit false

/-- A tree of folders, and the way down to the working folder. -/
structure Disk where
  root : Folder := []
  working : List String := []

namespace Folder

/-- The node at the end of a way down. -/
def at? (f : Folder) : List String → Option Node
  | [] => some (.folder f)
  | name :: rest =>
      match Entries.get? name f, rest with
      | some node, [] => some node
      | some (.folder g), rest => at? g rest
      | _, _ => none

/-- Put a folder at the end of a way down, making the folders on the way. -/
def put (f : Folder) (g : Folder) : List String → Folder
  | [] => g
  | name :: rest =>
      let below : Folder :=
        match Entries.get? name f with
        | some (.folder h) => h
        | _ => []
      Entries.insert name (.folder (put below g rest)) f

end Folder

namespace Disk

instance : Inhabited Disk := ⟨{}⟩

open Retrieval.Path (Step)

/-- The disk that has nothing but the way to an empty working folder. -/
def ofWorking (way : List String) : Disk := { root := Folder.put [] [] way, working := way }

def put (disk : Disk) (place : List String) (f : Folder) : Disk :=
  { disk with root := disk.root.put f place }

/-! ## Following paths -/

/-- Follow steps from a place in the tree. -/
def walk (disk : Disk) (place : List String) : List Step → Except FileError (List String)
  | [] => .ok place
  | s :: rest =>
      match disk.root.at? place with
      | some (.folder f) =>
          match s with
          | .stay => walk disk place rest
          | .up => walk disk place.dropLast rest
          | .down name =>
              if Path.nameLimit < name.utf8ByteSize then .error .nameTooLong
              else if Folder.has f name then walk disk (place ++ [name]) rest
              else .error .notFound
      | some _ => .error .notDirectory
      | none => .error .notFound

def start (disk : Disk) (path : String) : List String :=
  if Path.isAbsolute path then [] else disk.working

/-- The folder at the end of steps, and its place. -/
def folderAt (disk : Disk) (start : List String) (steps : List Step) :
    Except FileError (List String × Folder) := do
  let place ← disk.walk start steps
  match disk.root.at? place with
  | some (.folder f) => .ok (place, f)
  | some _ => .error .notDirectory
  | none => .error .notFound

def find (disk : Disk) (path : String) : Except FileError Node :=
  match Path.fault? path with
  | some e => .error e
  | none => do
      let place ← disk.walk (disk.start path) (Path.stepsInto path)
      match disk.root.at? place with
      | some node => .ok node
      | none => .error .notFound

def has (disk : Disk) (path : String) : Bool :=
  match disk.find path with
  | .ok _ => true
  | .error _ => false

/-- The folder that names are joined to by a path, and its place: for the empty path
it is the working folder. -/
def folder (disk : Disk) (path : String) : Except FileError (List String × Folder) :=
  disk.folderAt (disk.start path) (Path.steps path)

/-! ## Folders -/

/-- Make one folder; its parent has to be there. -/
def makeFolder (disk : Disk) (start : List String) (steps : List Step) :
    Except FileError Disk := do
  let (place, parent) ← disk.folderAt start steps.dropLast
  match steps.getLast? with
  | some (.down name) =>
      if Path.nameLimit < name.utf8ByteSize then .error .nameTooLong
      else if parent.has name then .error .alreadyExists
      else .ok (disk.put place (Entries.insert name (.folder []) parent))
  | _ => .error .alreadyExists

/-- Make a folder and those above it, at most `n`.  A folder that is there is fine. -/
def makeFolders (disk : Disk) (start : List String) : Nat → List Step → Disk × Option FileError
  | _, [] | 0, _ => (disk, none)
  | n + 1, steps =>
      let settle (disk : Disk) (e : FileError) : Disk × Option FileError :=
        match disk.folderAt start steps with
        | .ok _ => (disk, none)
        | .error _ => (disk, some e)
      match disk.makeFolder start steps with
      | .ok made => (made, none)
      | .error .notFound =>
          match makeFolders disk start n (Path.parent steps) with
          | (disk, some e) => (disk, some e)
          | (disk, none) =>
              match disk.makeFolder start steps with
              | .ok made => (made, none)
              | .error e => settle disk e
      | .error e => settle disk e

/-- Make the folder of a path and those above it.  For the empty path there is
nothing to make. -/
def makePath (disk : Disk) (path : String) : Disk × Option FileError :=
  if path.isEmpty then (disk, none)
  else
    match Path.fault? path with
    | some e => (disk, some e)
    | none =>
        let steps := Path.steps path
        disk.makeFolders (disk.start path) steps.length steps

/-- Make the folders above what a path names. -/
def makeParent (disk : Disk) (path : String) : Disk × Option FileError :=
  match Path.fault? path with
  | some e => (disk, some e)
  | none =>
      let steps := Path.parent (Path.steps path)
      disk.makeFolders (disk.start path) steps.length steps

/-! ## Files -/

def read (disk : Disk) (path : String) : Except FileError Bytes := do
  match ← disk.find path with
  | .file content => .ok content
  | .locked _ => .error .accessDenied
  | .folder _ => .error .isDirectory

def readText (disk : Disk) (path : String) : Except FileError (List Char) := do
  let content ← disk.read path
  match content.text? with
  | none => .error .notText
  | some text => .ok text

/-- The folder that a path's last name is in, its place, and the name. -/
def parentOf (disk : Disk) (path : String) :
    Except FileError (List String × Folder × String) :=
  match Path.fault? path with
  | some e => .error e
  | none => do
      let steps := Path.steps path
      let (place, parent) ← disk.folderAt (disk.start path) steps.dropLast
      match steps.getLast? with
      | some (.down name) =>
          if Path.nameLimit < name.utf8ByteSize then .error .nameTooLong
          else .ok (place, parent, name)
      | _ => .error .isDirectory

/-- Make or replace a file. -/
def write (disk : Disk) (path : String) (content : Bytes) : Except FileError Disk := do
  let (place, parent, name) ← disk.parentOf path
  if Path.endsInSlash path then .error .isDirectory
  else return disk.put place (← parent.write name content)

/-- Take out a file, or a folder with all it holds. -/
def remove (disk : Disk) (path : String) : Except FileError Disk := do
  let _ ← disk.find path
  let (place, parent, name) ← disk.parentOf path
  return disk.put place (Entries.erase name parent)

mutual

/-- The paths of the files below a node. -/
def filesOfNode (path : String) : Node → List String
  | .file _ | .locked _ => [path]
  | .folder entries => filesOf (path ++ "/") entries

/-- The paths of the files below a folder, each starting with `base`. -/
def filesOf (base : String) : List (String × Node) → List String
  | [] => []
  | (name, node) :: rest => filesOfNode (base ++ name) node ++ filesOf base rest

end

/-- The paths of all files below the working folder, in order. -/
def files (disk : Disk) : List String :=
  match disk.root.at? disk.working with
  | some (.folder f) => (filesOf "" f).mergeSort fun a b => a ≤ b
  | _ => []

end Disk

end Retrieval
