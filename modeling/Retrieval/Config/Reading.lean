/-
# Retrieval.Config.Reading -- configurations as YAML texts

A part of a configuration is a mapping of its fields, or is not written at all.
A field that is not known is passed over without being looked at; one that is
known may be there once.  A field that holds a text takes any scalar as it is
written, one that holds a number only a plain integer.

The storage mode is told by its field `mode`, or by the first item where it is a
sequence.  Its other parts are looked at as values, whether they are needed or
not, so none of them may have a tag.
-/
import Retrieval.Config.Basic
import Retrieval.Disk.Lookup
import Retrieval.Yaml.Value

namespace Retrieval

set_option autoImplicit false

namespace Yaml

namespace Source

/-! ## Parts of a document -/

/-- The fields of a node that is a mapping or is not written. -/
def fields (s : Source) (node : Linked) : Reading (List (Linked × Linked)) := do
  match ← s.follow node with
  | .mapping _ fields => return fields
  | .scalar _ .plain "" => return []
  | _ => failure

/-- The text of a scalar, whatever it stands for. -/
def text (s : Source) (node : Linked) : Reading String := do
  match ← s.follow node with
  | .scalar _ _ text => return text
  | _ => failure

/-- Spread fields over the columns of a record: an unknown name is passed over, a
column that is already filled is an error, and so is a name that is no scalar. -/
def spread (s : Source) (names : List String) :
    List (Linked × Linked) → List (Option Linked) → Reading (List (Option Linked))
  | [], columns => pure columns
  | (key, value) :: rest, columns => do
      match names.idxOf? (← s.text key) with
      | none => spread s names rest columns
      | some i =>
          match columns[i]? with
          | some none => spread s names rest (columns.set i (some value))
          | _ => failure

/-- The columns of a node with the given names. -/
def columns (s : Source) (names : List String) (node : Linked) :
    Reading (List (Option Linked)) := do
  spread s names (← s.fields node) (List.replicate names.length none)

/-- The natural number of 64 bits in a plain scalar, or in a literal one with the
tag of integers. -/
def wordIn? : Linked → Option UInt64
  | .scalar _ .plain text => Scalar.word? text.toList
  | .scalar p .literal text =>
      if p.tag = some (Tag.ofKind "int") then Scalar.word? text.toList else none
  | _ => none

def word (s : Source) (node : Linked) : Reading UInt64 := do wordIn? (← s.follow node)

/-- A number or nothing.  A plain scalar with the tag of nothing has to be one of
the words for it. -/
def optionalWord (s : Source) (node : Linked) : Reading (Option UInt64) := do
  let node ← s.follow node
  match node with
  | .scalar p .plain text =>
      if p.tag = some (Tag.ofKind "null") then
        if Scalar.isNull text then return none else failure
      else if p.tag.isNone && (text.isEmpty || Scalar.isNull text) then return none
      else return some (← wordIn? node)
  | _ => return some (← wordIn? node)

/-- A column that is read, or its default. -/
def column {α : Type} (default : α) (read : Linked → Reading α) : Option Linked → Reading α
  | none => pure default
  | some node => read node

end Source

end Yaml

open Yaml (Linked Source Tree Value)
open Yaml.Source (Reading column)

/-! ## Storage -/

/-- The metric of a node: its name as a scalar, or as the tag of nothing. -/
def Metric.ofNode (s : Source) (node : Linked) : Reading Metric := do
  match ← s.follow node with
  | .scalar p style text =>
      match Value.ownName? p.tag with
      | none => Metric.ofName? text
      | some name =>
          if style = .plain && (text.isEmpty || Yaml.Scalar.isNull text) then Metric.ofName? name
          else failure
  | _ => failure

namespace StorageMode

/-- The words for the modes. -/
inductive Kind where
  | ephemeral
  | durable
  deriving DecidableEq, Repr

def Kind.ofTree? : Tree → Option Kind
  | .scalar _ _ "ephemeral" => some .ephemeral
  | .scalar _ _ "durable" => some .durable
  | _ => none

def untagged? (t : Tree) : Option Value :=
  (Value.ofTree? t).bind fun v => if v.isUntagged then some v else none

/-- Take the field for the kind out of the fields; it has to be there once, and the
other fields are looked at as values. -/
def takeKind : List (Tree × Tree) → Option (Option Kind × List (Value × Value))
  | [] => some (none, [])
  | (key, value) :: rest => do
      let k ← untagged? key
      match k with
      | .string "mode" => do
          let kind ← Kind.ofTree? value
          match ← takeKind rest with
          | (none, fields) => some (some kind, fields)
          | (some _, _) => none
      | _ => do
          let v ← untagged? value
          let (kind, fields) ← takeKind rest
          return (kind, (k, v) :: fields)

/-- The path among the fields of a mode on disk: under its name, or under zero.
Keys have to be texts or natural numbers. -/
def pathAmong (found : Option Value) : List (Value × Value) → Option (Option Value)
  | [] => some found
  | (key, value) :: rest =>
      let isPath : Option Bool :=
        match key with
        | .string name => some (name = "path")
        | .integer n => if n < 0 then none else some (n = 0)
        | _ => none
      match isPath, found with
      | none, _ => none
      | some false, _ => pathAmong found rest
      | some true, none => pathAmong (some value) rest
      | some true, some _ => none

def ofTree? : Tree → Option StorageMode
  | .mapping p fields =>
      if (Value.ownName? p.tag).isSome then none
      else do
        match ← takeKind fields with
        | (some .ephemeral, _) => some .ephemeral
        | (some .durable, fields) =>
            match ← pathAmong none fields with
            | some (.string path) => some (.durable path)
            | _ => none
        | (none, _) => none
  | .sequence p (kind :: items) =>
      if (Value.ownName? p.tag).isSome then none
      else do
        match ← Kind.ofTree? kind, ← items.mapM untagged? with
        | .ephemeral, [] => some .ephemeral
        | .durable, [.string path] => some (.durable path)
        | _, _ => none
  | _ => none

end StorageMode

/-! ## The parts of a configuration -/

/-- The section on embeddings; the model and the address are required. -/
def EmbeddingConfig.ofNode (s : Source) (node : Linked) : Reading EmbeddingConfig := do
  match ← s.columns ["model", "base_url", "dimension"] node with
  | [some model, some baseUrl, dimension] =>
      return {
        model := ← s.text model
        baseUrl := ← s.text baseUrl
        dimension := ← column none s.optionalWord dimension }
  | _ => failure

/-- The storage mode of a node, two collections deep in the document. -/
def StorageMode.ofNode (s : Source) (node : Linked) : Reading StorageMode := do
  StorageMode.ofTree? (← s.tree 2 node)

def StorageConfig.ofNode (s : Source) (node : Linked) : Reading StorageConfig := do
  match ← s.columns ["storage_mode", "metric"] node with
  | [mode, metric] =>
      return {
        mode := ← column .ephemeral (StorageMode.ofNode s) mode
        metric := ← column .cosine (Metric.ofNode s) metric }
  | _ => failure

def SearchConfig.ofNode (s : Source) (node : Linked) : Reading SearchConfig := do
  match ← s.columns ["top_k"] node with
  | [topK] => return { topK := ← column 4 s.word topK }
  | _ => failure

namespace Config

/-- The configuration of a YAML text as written. -/
def ofSource (s : Source) : Reading Config := do
  match ← s.columns ["embedding", "storage", "search"] s.root with
  | [embedding, storage, search] =>
      return {
        embedding := ← column {} (EmbeddingConfig.ofNode s) embedding
        storage := ← column {} (StorageConfig.ofNode s) storage
        search := ← column {} (SearchConfig.ofNode s) search }
  | _ => failure

/-- The configuration of a YAML text, if it is one. -/
def read? (text : List Char) : Option Config := do
  let s ← Source.read? text
  s.run (ofSource s)

end Config

/-! ## Files -/

/-- Why a configuration cannot be loaded. -/
inductive ConfigError where
  | file (e : FileError)
  | unreadable
  deriving DecidableEq, Repr

def ConfigError.message : ConfigError → String
  | file e => s!"Failed to read config file: {e.message}"
  | unreadable => "Failed to parse config"

namespace Config

def load (disk : Disk) (path : String) : Except ConfigError Config :=
  match disk.readText path with
  | .error e => .error (.file e)
  | .ok text =>
      match read? text with
      | none => .error .unreadable
      | some c => .ok c

def defaultPath : String := "config.yaml"

/-- The configuration in the usual file; the default when there is none or it
cannot be read. -/
def loadOrDefault (disk : Disk) : Config :=
  match load disk defaultPath with
  | .error _ => {}
  | .ok c => c

end Config

end Retrieval
