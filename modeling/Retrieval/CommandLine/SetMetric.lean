/-
# Retrieval.CommandLine.SetMetric -- the command that changes the metric

The configuration file is read as a value, the metric is put into its storage
section, and the value is written back, if it can be, so what the program does not
know stays in the file.  A storage section that is not there is made, and one that is
something else than a mapping is left alone.
-/
import Retrieval.CommandLine.Failure
import Retrieval.Yaml.Value.Printer

namespace Retrieval

set_option autoImplicit false

namespace CommandLine

open Yaml (Value)

/-- The fields of a storage section; one that holds nothing has none. -/
def storageFields? : Option Value → Option (List (Value × Value))
  | none | some .null => some []
  | some (.mapping fields) => some fields
  | _ => none

/-- The value of a configuration with another metric. -/
def withMetric (path : String) (m : Metric) : Value → Except Failure Value
  | .mapping fields =>
      match storageFields? (Value.field? "storage" fields) with
      | none => .error (.storageNoMapping path)
      | some storage =>
          .ok (.mapping (Value.setField "storage"
            (.mapping (Value.setField "metric" (.string m.name) storage)) fields))
  | .tagged tag v => do return .tagged tag (← withMetric path m v)
  | _ => .error .rootNoMapping

def metricSet (m : Metric) : String :=
  s!"✓ Metric updated to: {m.name}\n" ++
    "Existing durable collections keep the metric they were created with.\n"

/-- Change the metric in the configuration at a path. -/
def setMetric (disk : Disk) (path name : String) : Except Failure (String × Disk) := do
  let m ← ((Metric.parse? name).map Except.ok).getD (.error (.unknownMetric name))
  let text ← (disk.readText path).mapError Failure.configFile
  let v ← ((Value.read? text).map Except.ok).getD (.error .configText)
  let v ← withMetric path m v
  let text ← (v.text?.map Except.ok).getD (.error .unwritable)
  let disk ← (disk.write path (Bytes.ofText text)).mapError Failure.writing
  return (metricSet m, disk)

end CommandLine

end Retrieval
