/-
# Retrieval.CommandLine.Run -- the program as a function

Running the program takes its arguments and the world it works on, and gives what
it says, its exit status, and the world afterwards.
-/
import Retrieval.CommandLine.Arguments
import Retrieval.CommandLine.Search
import Retrieval.CommandLine.SetMetric
import Retrieval.CommandLine.Show

namespace Retrieval

set_option autoImplicit false

namespace CommandLine

variable {σ : Type}

/-- What a run of the program shows. -/
structure Outcome where
  exit : UInt8 := 0
  output : String := ""
  error : String := ""
  deriving DecidableEq, Repr

namespace Outcome

/-- The outcome of a command that said something and perhaps failed. -/
def ofFailure (output : String) : Option Failure → Outcome
  | none => { output }
  | some f => { exit := 1, output, error := f.text }

end Outcome

def programName : String := "polaris-rag"

/-- The name and version of the program. -/
def versionText : String := s!"{programName} 0.1.0\n"

def usageText : String :=
  unlines
    [s!"Usage: {programName} [--config PATH] COMMAND", "",
     "Commands:",
     "  show                                    Show current configuration",
     "  metric set METRIC                       Set the distance metric",
     "  search --corpus PATH [-k NUMBER] QUERY  Index a corpus file and search it"]

/-- The outcome when there is no command to run. -/
def stopped : Stop → Outcome
  | .usage => { exit := 2, error := usageText }
  | .version => { output := versionText }
  | .help => { output := usageText }

def perform (carry : Ollama.Carrier σ) (i : Invocation) (w : World σ) : Outcome × World σ :=
  match i.command with
  | .show =>
      match showConfig w.disk i.config with
      | .error e => (.ofFailure "" (some e), w)
      | .ok output => ({ output }, w)
  | .setMetric name =>
      match setMetric w.disk i.config name with
      | .error e => (.ofFailure "" (some e), w)
      | .ok (output, disk) => ({ output }, { w with disk })
  | .search corpus k query =>
      let (output, failure, w) := search carry i.config corpus k query w
      (.ofFailure output failure, w)

def run (carry : Ollama.Carrier σ) (arguments : List String) (w : World σ) :
    Outcome × World σ :=
  match Invocation.read arguments with
  | .error stop => (stopped stop, w)
  | .ok i => perform carry i w

end CommandLine

end Retrieval
