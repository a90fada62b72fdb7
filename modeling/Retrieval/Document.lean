/-
# Retrieval.Document -- documents and the table that numbers them

A document is a text with metadata.  The table of a store numbers its documents
from zero in the order of their arrival; the number of a document is its place
in the table, so no number is given twice, and a document never changes or goes
away.
-/
import Retrieval.Decimal.Layout
import Retrieval.Filter.Basic
import Retrieval.Json.Reading

namespace Retrieval

set_option autoImplicit false

/-- The number of a document, shared by the table and the index. -/
abbrev DocumentId := UInt64

/-- The number of a document as it is told to callers. -/
def DocumentId.text (id : DocumentId) : String := String.ofList (digitsOf id.toNat)

/-- A text and what is known about it. -/
structure Document where
  content : String
  metadata : Metadata := []

namespace Document

instance : Inhabited Document := ⟨{ content := "" }⟩

/-- The document with one more entry of metadata, over an older one of that name. -/
def withMetadata (d : Document) (name : String) (value : Json) : Document :=
  { d with metadata := Entries.insert name value d.metadata }

def toJson (d : Document) : Json :=
  .object [("content", .string d.content), ("metadata", .object d.metadata)]

/-- The document of a JSON text; the metadata may be missing. -/
def read? (text : List Char) : Option Document := do
  let source ← Json.Source.read text
  match ← source.columns ["content", "metadata"] with
  | [some content, metadata] =>
      let content ← content.text?
      let metadata ←
        match metadata with
        | none => some []
        | some fields => fields.values? (Json.Source.depthLimit - 2)
      return { content, metadata }
  | _ => none

end Document

/-- The table of the documents of a store. -/
structure Documents where
  entries : Array Document := #[]

namespace Documents

instance : Inhabited Documents := ⟨{}⟩

def size (ds : Documents) : Nat := ds.entries.size

def nextId (ds : Documents) : DocumentId := UInt64.ofNat ds.size

def insert (ds : Documents) (d : Document) : Documents := ⟨ds.entries.push d⟩

def get? (ds : Documents) (id : DocumentId) : Option Document := ds.entries[id.toNat]?

@[simp] theorem size_insert (ds : Documents) (d : Document) :
    (ds.insert d).size = ds.size + 1 := by simp [size, insert]

end Documents

end Retrieval
