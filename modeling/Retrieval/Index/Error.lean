/-
# Retrieval.Index.Error -- what can go wrong with stored vectors

A file operation fails for one of the causes of `FileError`.  An index refuses a
vector that is not valid, and a collection on disk can disagree with what is
asked of it, can be damaged, or can meet a failing file operation.
-/
import Retrieval.Embedding

namespace Retrieval

set_option autoImplicit false

/-- Why a file operation failed. -/
inductive FileError where
  | notFound
  | accessDenied
  | alreadyExists
  | notDirectory
  | isDirectory
  | tooLarge
  | nameTooLong
  | zeroInPath
  | notText
  | nothingWritten
  | other (message : String)
  deriving DecidableEq, Repr

def FileError.message : FileError → String
  | notFound => "No such file or directory (os error 2)"
  | accessDenied => "Permission denied (os error 13)"
  | alreadyExists => "File exists (os error 17)"
  | notDirectory => "Not a directory (os error 20)"
  | isDirectory => "Is a directory (os error 21)"
  | tooLarge => "File too large (os error 27)"
  | nameTooLong => "File name too long (os error 36)"
  | zeroInPath => "file name contained an unexpected NUL byte"
  | notText => "stream did not contain valid UTF-8"
  | nothingWritten => "failed to write the buffered data"
  | other message => message

/-- Why an index or a collection refuses. -/
inductive IndexError where
  | fault (f : Embedding.Fault)
  | configMismatch (message : String)
  | file (e : FileError)
  | unencodable (message : String)
  | corrupt (message : String)
  deriving DecidableEq, Repr

def IndexError.message : IndexError → String
  | fault f => f.message
  | configMismatch message => s!"configuration mismatch: {message}"
  | file e => s!"I/O error: {e.message}"
  | unencodable message => s!"serialization error: {message}"
  | corrupt message => s!"corrupt collection: {message}"

end Retrieval
