/-
# Retrieval.Metric -- distances

A metric turns two embeddings of one length into a distance, and smaller always
means closer: the inner product is negated for that.  All arithmetic rounds once
per operation and runs in the order of the components, and a sum starts from
negative zero, so the sum of nothing is negative zero.
-/
import Retrieval.Embedding
import Retrieval.Binary.Arithmetic

namespace Retrieval

set_option autoImplicit false

namespace Embedding

/-! ## Distances -/

/-- The inner product. -/
def dot (a b : Embedding) : Binary32 := Binary.sum (List.zipWith (· * ·) a b)

/-- The length of a vector in space. -/
def magnitude (a : Embedding) : Binary32 := (Binary.sum (a.map fun x => x * x)).sqrt

/-- The length of the difference. -/
def euclidean (a b : Embedding) : Binary32 :=
  (Binary.sum (List.zipWith (fun x y => (x - y) * (x - y)) a b)).sqrt

/-- One minus the cosine of the angle; one when either vector has no length. -/
def cosine (a b : Embedding) : Binary32 :=
  let one : Binary32 := Binary.ofInt 1
  if (magnitude a).isZero || (magnitude b).isZero then one
  else one - dot a b / (magnitude a * magnitude b)

end Embedding

/-- A distance on embeddings. -/
inductive Metric where
  | cosine
  | euclidean
  | dot
  deriving DecidableEq, Repr

namespace Metric

instance : Inhabited Metric := ⟨cosine⟩

/-- The distance of two embeddings of one length; smaller is closer. -/
def distance : Metric → Embedding → Embedding → Binary32
  | cosine, a, b => Embedding.cosine a b
  | euclidean, a, b => Embedding.euclidean a b
  | dot, a, b => -Embedding.dot a b

def name : Metric → String
  | cosine => "cosine"
  | euclidean => "euclidean"
  | dot => "dot"

def ofName? (s : String) : Option Metric :=
  [cosine, euclidean, dot].find? fun m => m.name = s

/-- The metric of a name in any case of its ASCII letters. -/
def parse? (s : String) : Option Metric :=
  ofName? (String.ofList (s.toList.map Char.toLower))

/-- What is said of a name that no metric has. -/
def unknownMessage (s : String) : String :=
  s!"unknown metric '{s}' (expected cosine, euclidean or dot)"

theorem ofName?_name (m : Metric) : ofName? m.name = some m := by
  cases m <;> decide

end Metric

end Retrieval
