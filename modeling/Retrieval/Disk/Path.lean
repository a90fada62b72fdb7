/-
# Retrieval.Disk.Path -- paths as texts

A path is a text of names with slashes between them.  Its steps go down to a name,
up by `..`, or stay by `.`; empty names are no steps.  A path that starts with a
slash starts at the root of the disk, any other one at the working folder.

Not every text is a path: it may not be empty, hold the character zero, or be too
long, and no name in it may be too long.
-/
import Retrieval.Disk.Basic

namespace Retrieval

set_option autoImplicit false

namespace Path

inductive Step where
  | stay
  | up
  | down (name : String)
  deriving DecidableEq, Repr

/-! ## Reading -/

def parts : List Char → List (List Char)
  | [] => [[]]
  | c :: rest =>
      if c = '/' then [] :: parts rest
      else
        match parts rest with
        | [] => [[c]]
        | part :: more => (c :: part) :: more

def Step.of (name : List Char) : Step :=
  if name = ['.'] then .stay else if name = ['.', '.'] then .up else .down (String.ofList name)

def steps (path : String) : List Step :=
  ((parts path.toList).filter fun part => !part.isEmpty).map Step.of

def isAbsolute (path : String) : Bool := path.toList.head? = some '/'

/-- Whether a path ends in a slash, and so can only be that of a folder. -/
def endsInSlash (path : String) : Bool := path.toList.getLast? = some '/'

/-- The steps to what is at a path.  A slash at the end is one more step that stays. -/
def stepsInto (path : String) : List Step :=
  steps path ++ if endsInSlash path then [.stay] else []

/-! ## Parts of paths -/

/-- The path of a name inside the folder of a path. -/
def join (path name : String) : String :=
  match path.toList.getLast? with
  | none => name
  | some '/' => path ++ name
  | some _ => path ++ "/" ++ name

/-- Steps without those at the end that stay. -/
def withoutStays (steps : List Step) : List Step :=
  (steps.reverse.dropWhile fun s => s = .stay).reverse

/-- The steps to the folder that the end of steps is in. -/
def parent (steps : List Step) : List Step := withoutStays (withoutStays steps).dropLast

/-! ## Limits -/

/-- How many bytes a name may have. -/
def nameLimit : Nat := 255

/-- How many bytes a path may have. -/
def limit : Nat := 4095

def isTooLong (path : String) : Bool := limit < path.utf8ByteSize

/-- Why a text is no path, if it is none. -/
def fault? (path : String) : Option FileError :=
  if path.toList.contains '\x00' then some .zeroInPath
  else if path.isEmpty then some .notFound
  else if isTooLong path then some .nameTooLong
  else none

end Path

end Retrieval
