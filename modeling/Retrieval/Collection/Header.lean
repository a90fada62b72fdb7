/-
# Retrieval.Collection.Header -- what a collection was made for

The header of a collection is the dimension and the metric of its embeddings.
It is written once, as a JSON object with one field a line.
-/
import Retrieval.Index.Basic
import Retrieval.Json.Printer
import Retrieval.Text.Utf8

namespace Retrieval

set_option autoImplicit false

/-- The dimension and the metric of a collection. -/
structure Header where
  dimension : UInt64
  metric : Metric
  deriving DecidableEq

namespace Header

def text (h : Header) : List Char :=
  "\x7b\n  \"dimension\": ".toList ++ digitsOf h.dimension.toNat ++
    ",\n  \"metric\": ".toList ++ Json.quoted h.metric.name ++ "\n\x7d".toList

def bytes (h : Header) : Bytes := Bytes.ofText h.text

/-- The metric of a source: its name, or an object whose only field has the name
and the value null. -/
def metric? : Json.Source → Option Metric
  | .string units => (Json.stringOf? units).bind Metric.ofName?
  | .object [(units, .null)] => (Json.stringOf? units).bind Metric.ofName?
  | _ => none

/-- The header of a text, if it is one. -/
def read? (text : List Char) : Option Header := do
  let source ← Json.Source.read text
  match ← source.columns ["dimension", "metric"] with
  | [some dimension, some metric] =>
      return { dimension := ← dimension.word?, metric := ← metric? metric }
  | _ => none

end Header

end Retrieval
