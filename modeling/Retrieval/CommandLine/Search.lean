/-
# Retrieval.CommandLine.Search -- the command that searches a corpus

The corpus is a file with a document in each line; blanks around a document do not
belong to it, and an empty line is none.  The documents are entered into a store
as configured, which may already hold embeddings from before, and the nearest to
the query are listed.
-/
import Retrieval.CommandLine.Show
import Retrieval.Store.Ingest
import Retrieval.Store.Search
import Retrieval.Text.Line

namespace Retrieval

set_option autoImplicit false

namespace CommandLine

variable {σ : Type}

def documentsOf (corpus : List Char) : List String :=
  (((Text.lines corpus).map Text.trim).filter fun line => !line.isEmpty).map String.ofList

/-- What is said before the documents are entered. -/
def indexing (c : Config) (texts : List String) : String :=
  s!"→ Indexing {texts.length} documents with {c.embedding.model}...\n"

/-- The line of a document that was found; the first one has number one. -/
def foundLine (number : Nat) (found : Document × Binary32) : String :=
  s!"  {number}. [{String.ofList (found.2.fixed 4)}] {found.1.content}\n"

/-- The lines of the documents that were found. -/
def foundLines (number : Nat) : List (Document × Binary32) → String
  | [] => ""
  | found :: rest => foundLine number found ++ foundLines (number + 1) rest

def numbers (ids : List DocumentId) : String := "[" ++ ", ".intercalate (ids.map toString) ++ "]"

def reported (m : Metric) (r : Report) : String :=
  let found :=
    if r.found.isEmpty then "\nNo matching documents.\n"
    else s!"\nResults: ({m.name} distance, lower is closer)\n\n" ++ foundLines 1 r.found
  let dropped :=
    if r.isComplete then ""
    else
      s!"\n! {r.dropped.length} of {r.hits.length} backend hits had no stored document: " ++
        numbers r.dropped ++ "\n"
  found ++ dropped

/-- Search a corpus.  What was said before a failure stays said. -/
def search (carry : Ollama.Carrier σ) (config corpus : String) (k : Option UInt64)
    (query : String) (w : World σ) : String × Option Failure × World σ :=
  match loadConfig w.disk config with
  | .error e => ("", some e, w)
  | .ok c =>
      match w.disk.readText corpus with
      | .error e => ("", some (.corpus corpus e), w)
      | .ok text =>
          let texts := documentsOf text
          let said := indexing c texts
          let embedder := c.client.embedder carry
          match Store.ofTexts embedder .reliable texts none c.options w with
          | (.error e, w) => (said, some (.building e), w)
          | (.ok s, w) =>
              match s.search embedder query (k.getD c.search.topK).toNat none w.service with
              | (.error e, service) => (said, some (.searching e), { w with service })
              | (.ok r, service) => (said ++ reported s.metric r, none, { w with service })

end CommandLine

end Retrieval
