/-
# Retrieval.Disk.Basic -- folders as values

A folder maps names to nodes, and a node is a file with its bytes or again a
folder.  Not every file is open to the program: one that is locked is there, with
its bytes and its length, but can be neither read nor written.  It can still be
renamed or replaced by another file, since that is up to the folder it is in.

This module holds what a collection does inside its folder: reading a file as
text, replacing one, renaming, and the elementary steps from which a crash-safe
replacement is put together (`Folder.Step`).  Stopping between any two of them is
what a crash can do.
-/
import Retrieval.Entries
import Retrieval.Text.Utf8
import Retrieval.Index.Error

namespace Retrieval

set_option autoImplicit false

/-- A file, one that can be neither read nor written, or a folder. -/
inductive Node where
  | file (content : Bytes)
  | locked (content : Bytes)
  | folder (entries : List (String × Node))

def Node.isFolder : Node → Bool
  | .folder _ => true
  | _ => false

/-- What a folder holds, by name. -/
abbrev Folder := Entries String Node

namespace Folder

def has (f : Folder) (name : String) : Bool := (Entries.get? name f).isSome

def read (f : Folder) (name : String) : Except FileError Bytes :=
  match Entries.get? name f with
  | none => .error .notFound
  | some (.folder _) => .error .isDirectory
  | some (.locked _) => .error .accessDenied
  | some (.file content) => .ok content

def readText (f : Folder) (name : String) : Except FileError (List Char) := do
  let content ← f.read name
  match content.text? with
  | none => .error .notText
  | some text => .ok text

/-- Make a file, or replace the one of that name. -/
def write (f : Folder) (name : String) (content : Bytes) : Except FileError Folder :=
  match Entries.get? name f with
  | some (.folder _) => .error .isDirectory
  | some (.locked _) => .error .accessDenied
  | _ => .ok (Entries.insert name (.file content) f)

/-! ## Elementary steps -/

/-- A step that happens completely or not at all. -/
inductive Step where
  | create (name : String)
  | append (name : String) (byte : UInt8)
  | rename (source target : String)
  deriving DecidableEq, Repr

def step (f : Folder) : Step → Except FileError Folder
  | .create name => f.write name []
  | .append name byte => do
      let content ← f.read name
      f.write name (content ++ [byte])
  | .rename source target =>
      match Entries.get? source f with
      | none => .error .notFound
      | some node =>
          match node.isFolder, (Entries.get? target f).map Node.isFolder with
          | false, some true => .error .isDirectory
          | true, some false => .error .notDirectory
          | _, _ => .ok (Entries.insert target node (Entries.erase source f))

/-- Steps in a row, up to the first that fails; what was done before it stays. -/
def run (f : Folder) : List Step → Folder × Option FileError
  | [] => (f, none)
  | s :: rest =>
      match f.step s with
      | .error e => (f, some e)
      | .ok g => run g rest

/-- The steps that replace a file by way of a temporary one: at no moment does
the target hold anything but its old content or the new one. -/
def replacement (temporary target : String) (content : Bytes) : List Step :=
  .create temporary :: content.map (.append temporary) ++ [.rename temporary target]

end Folder

end Retrieval
