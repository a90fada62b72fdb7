/-
# Retrieval.CommandLine.Show -- the command that shows the configuration
-/
import Retrieval.CommandLine.Failure

namespace Retrieval

set_option autoImplicit false

namespace CommandLine

/-- The configuration at a path; the default when nothing is there. -/
def loadConfig (disk : Disk) (path : String) : Except Failure Config :=
  if disk.has path then (Config.load disk path).mapError .config else .ok {}

def unlines (lines : List String) : String := String.join (lines.map (· ++ "\n"))

def shown (c : Config) : String :=
  let dimension :=
    match c.embedding.dimension with
    | none => "probed"
    | some n => toString n
  let mode :=
    match c.storage.mode with
    | .ephemeral => "ephemeral"
    | .durable path => s!"durable @ {path}"
  unlines
    ["Current Configuration:", "",
     "Embedding:",
     "  Model:     " ++ c.embedding.model,
     "  Base URL:  " ++ c.embedding.baseUrl,
     "  Dimension: " ++ dimension, "",
     "Storage:",
     "  Mode:      " ++ mode,
     "  Metric:    " ++ c.storage.metric.name, "",
     "Search:",
     "  Top K:     " ++ toString c.search.topK]

def showConfig (disk : Disk) (path : String) : Except Failure String :=
  (loadConfig disk path).map shown

end CommandLine

end Retrieval
