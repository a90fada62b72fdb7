/-
# Retrieval.Proofs.Config.Tree -- the configuration of a tree

A configuration is read from the nodes of a document, section by section.  It is the one
that the tree of the whole document says (`Config.run_ofSource`), wherever that tree can
be made; so two texts with one tree have one configuration.
-/
import Mathlib.Data.List.Basic
import Retrieval.Proofs.Yaml.Tree

namespace Retrieval

set_option autoImplicit false

open Yaml (Linked Source Tree Value)
open Yaml.Source (Stands ColumnsStand)
open Yaml.Source.Reading (Costs Follows Leads follows_failure follows_lift follows_pure)

/-! ## What trees say -/

/-- The metric of a tree. -/
def Metric.ofTree? : Tree → Option Metric
  | .scalar p style text =>
      match Value.ownName? p.tag with
      | none => Metric.ofName? text
      | some name =>
          if style = .plain && (text.isEmpty || Yaml.Scalar.isNull text) then Metric.ofName? name
          else none
  | _ => none

/-- The section on embeddings of a tree. -/
def EmbeddingConfig.ofTree? (t : Tree) : Option EmbeddingConfig := do
  match ← t.columns? ["model", "base_url", "dimension"] with
  | [some model, some baseUrl, dimension] =>
      return {
        model := ← model.text?
        baseUrl := ← baseUrl.text?
        dimension := ← Tree.column? none Tree.optionalWord? dimension }
  | _ => none

/-- The section on storage of a tree. -/
def StorageConfig.ofTree? (t : Tree) : Option StorageConfig := do
  match ← t.columns? ["storage_mode", "metric"] with
  | [mode, metric] =>
      return {
        mode := ← Tree.column? .ephemeral StorageMode.ofTree? mode
        metric := ← Tree.column? .cosine Metric.ofTree? metric }
  | _ => none

/-- The section on searches of a tree. -/
def SearchConfig.ofTree? (t : Tree) : Option SearchConfig := do
  match ← t.columns? ["top_k"] with
  | [topK] => return { topK := ← Tree.column? 4 Tree.word? topK }
  | _ => none

/-- The configuration of a tree. -/
def Config.ofTree? (t : Tree) : Option Config := do
  match ← t.columns? ["embedding", "storage", "search"] with
  | [embedding, storage, search] =>
      return {
        embedding := ← Tree.column? {} EmbeddingConfig.ofTree? embedding
        storage := ← Tree.column? {} StorageConfig.ofTree? storage
        search := ← Tree.column? {} SearchConfig.ofTree? search }
  | _ => none

/-! ## What documents say -/

section Documents

variable {s : Source} {node : Linked} {t : Tree} {d k : Nat}

/-- Reading the first of some columns leaves enough for the others. -/
theorem Yaml.Source.ColumnsStand.head {α : Type} (default : α) {read : Linked → Source.Reading α}
    {read? : Tree → Option α} {first : Option Linked} {slot : Option Tree}
    {nodes : List (Option Linked)} {slots : List (Option Tree)}
    (stand : ColumnsStand s d (first :: nodes) (slot :: slots) k)
    (follows : ∀ node t k, Stands s d node t k → Follows (read node) (read? t) k) :
    ∃ i j, i + j = k ∧
      Follows (Source.column default read first) (Tree.column? default read? slot) i ∧
      ColumnsStand s d nodes slots j := by
  cases stand with
  | free more => exact ⟨0, k, Nat.zero_add k, follows_pure _, more⟩
  | taken stands more => exact ⟨_, _, rfl, follows _ _ _ stands, more⟩

theorem Metric.follows_ofNode (stands : Stands s d node t k) :
    Follows (Metric.ofNode s node) (Metric.ofTree? t) k := by
  refine stands.follows_settled ?_
  obtain ⟨j, paid, ⟨p, style, text, met, rfl⟩ | ⟨p, items, trees, met, rfl⟩ |
    ⟨p, fields, trees, e, met, rfl, rfl, inside⟩⟩ := stands.cases <;> rw [met]
  · unfold Metric.ofTree?
    dsimp only
    cases Value.ownName? p.tag with
    | none => exact follows_lift _
    | some name =>
        dsimp only
        split
        · exact follows_lift _
        · exact follows_failure
  · exact follows_failure
  · exact follows_failure

theorem StorageMode.follows_ofNode (stands : Stands s 126 node t k) :
    Follows (StorageMode.ofNode s node) (StorageMode.ofTree? t) k := by
  refine Follows.bind (g := StorageMode.ofTree?) (j := 0) (Costs.follows stands) fun _ same => ?_
  cases same
  exact follows_lift _

theorem EmbeddingConfig.follows_ofNode (stands : Stands s (d + 1) node t k) :
    Follows (EmbeddingConfig.ofNode s node) (EmbeddingConfig.ofTree? t) k := by
  refine stands.columns.follows_bind fun nodes slots j found stand => ?_
  have three := Tree.length_columns? found
  obtain ⟨model, baseUrl, dimension, rfl⟩ := List.length_eq_three.1 three
  obtain ⟨model', baseUrl', dimension', rfl⟩ := List.length_eq_three.1 (stand.length_eq.trans three)
  cases stand with
  | free _ => exact follows_failure.mono (Nat.zero_le _)
  | taken model more =>
      cases more with
      | free _ => exact follows_failure.mono (Nat.zero_le _)
      | taken baseUrl more =>
          obtain ⟨i, j, rfl, dimension, _⟩ :=
            more.head none fun _ _ _ => Stands.optionalWord
          refine model.text.bind fun _ _ => baseUrl.text.bind fun _ _ => ?_
          refine (dimension.bind fun _ _ => follows_pure _).mono (Nat.le_add_right i j)

theorem StorageConfig.follows_ofNode (stands : Stands s 127 node t k) :
    Follows (StorageConfig.ofNode s node) (StorageConfig.ofTree? t) k := by
  refine stands.columns.follows_bind fun nodes slots j found stand => ?_
  have two := Tree.length_columns? found
  obtain ⟨mode, metric, rfl⟩ := List.length_eq_two.1 two
  obtain ⟨mode', metric', rfl⟩ := List.length_eq_two.1 (stand.length_eq.trans two)
  obtain ⟨i, j, rfl, mode, rest⟩ := stand.head .ephemeral
    fun _ _ _ => StorageMode.follows_ofNode
  obtain ⟨j, l, rfl, metric, _⟩ := rest.head .cosine fun _ _ _ => Metric.follows_ofNode
  refine mode.bind fun _ _ => ?_
  exact (metric.bind fun _ _ => follows_pure _).mono (Nat.le_add_right j l)

theorem SearchConfig.follows_ofNode (stands : Stands s (d + 1) node t k) :
    Follows (SearchConfig.ofNode s node) (SearchConfig.ofTree? t) k := by
  refine stands.columns.follows_bind fun nodes slots j found stand => ?_
  have one := Tree.length_columns? found
  obtain ⟨topK, rfl⟩ := List.length_eq_one_iff.1 one
  obtain ⟨topK', rfl⟩ := List.length_eq_one_iff.1 (stand.length_eq.trans one)
  obtain ⟨i, j, rfl, topK, _⟩ := stand.head 4 fun _ _ _ => Stands.word
  exact (topK.bind fun _ _ => follows_pure _).mono (Nat.le_add_right i j)

theorem Config.follows_ofSource (stands : Stands s Source.depthLimit s.root t k) :
    Follows (Config.ofSource s) (Config.ofTree? t) k := by
  refine Leads.follows_bind (Stands.columns (d := 127) stands)
    fun nodes slots j found stand => ?_
  have three := Tree.length_columns? found
  obtain ⟨embedding, storage, search, rfl⟩ := List.length_eq_three.1 three
  obtain ⟨embedding', storage', search', rfl⟩ :=
    List.length_eq_three.1 (stand.length_eq.trans three)
  obtain ⟨i, j, rfl, embedding, rest⟩ := stand.head {}
    fun _ _ _ => EmbeddingConfig.follows_ofNode
  obtain ⟨j, l, rfl, storage, rest⟩ := rest.head {}
    fun _ _ _ => StorageConfig.follows_ofNode
  obtain ⟨l, m, rfl, search, _⟩ := rest.head {}
    fun _ _ _ => SearchConfig.follows_ofNode
  refine embedding.bind fun _ _ => storage.bind fun _ _ => ?_
  exact (search.bind fun _ _ => follows_pure _).mono (Nat.le_add_right l m)

/-- **The configuration of a text is that of its tree.** -/
theorem Config.run_ofSource (grown : s.run (s.tree 0 s.root) = some t) :
    s.run (Config.ofSource s) = Config.ofTree? t := by
  obtain ⟨⟨_, left⟩, given, rfl⟩ := Option.map_eq_some_iff.1 grown
  obtain ⟨k, stands⟩ := Yaml.Source.isMetered_expand s Source.depthLimit s.root _ _ _ given
  have enough : k ≤ s.referenceLimit := by
    have paid := (stands.of_run given).2
    omega
  obtain ⟨rest, _, same⟩ := Config.follows_ofSource stands _ enough
  change ((Config.ofSource s).run s.referenceLimit).map Prod.fst = _
  rw [same, Option.map_map]
  exact Option.map_id'

/-- The configuration of a text that has a tree. -/
theorem Config.read?_of_tree {text : List Char} (found : Tree.read? text = some t) :
    Config.read? text = Config.ofTree? t := by
  obtain ⟨s, isSource, grown⟩ := Option.bind_eq_some_iff.1 found
  unfold Config.read?
  rw [isSource]
  exact Config.run_ofSource grown

end Documents

end Retrieval
