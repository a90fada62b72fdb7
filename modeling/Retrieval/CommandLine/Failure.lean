/-
# Retrieval.CommandLine.Failure -- what a command says when it fails
-/
import Retrieval.Config.Reading
import Retrieval.Metric
import Retrieval.Store.Basic

namespace Retrieval

set_option autoImplicit false

namespace CommandLine

/-- Why a command failed. -/
inductive Failure where
  | config (e : ConfigError)
  | unknownMetric (name : String)
  | configFile (e : FileError)
  | configText
  | rootNoMapping
  | storageNoMapping (path : String)
  | unwritable
  | writing (e : FileError)
  | corpus (path : String) (e : FileError)
  | building (e : StoreError)
  | searching (e : StoreError)
  deriving DecidableEq, Repr

namespace Failure

def message : Failure → String
  | config _ => "Failed to load config"
  | unknownMetric name => Metric.unknownMessage name
  | configFile _ => "Failed to read config file"
  | configText => "Failed to parse config"
  | rootNoMapping => "Config root must be a mapping"
  | storageNoMapping path => s!"\x60storage\x60 in {path} must be a mapping"
  | unwritable => "Failed to serialize config"
  | writing _ => "Failed to write config file"
  | corpus path _ => s!"Failed to read corpus {path}"
  | building _ => "Failed to build vector store. Is Ollama running?"
  | searching _ => "Search failed"

def cause? : Failure → Option String
  | config e => some e.message
  | configFile e | writing e | corpus _ e => some e.message
  | building e | searching e => some e.message
  | _ => none

/-- What is shown of a failure. -/
def text (f : Failure) : String :=
  let cause :=
    match f.cause? with
    | none => ""
    | some cause => s!"\nCaused by:\n    {cause}\n"
  s!"Error: {f.message}\n{cause}"

end Failure

end CommandLine

end Retrieval
