/-
# Retrieval.Proofs.Config.Printed -- sections of a configuration in a printed text

A configuration takes texts as they are written, so a section means the same in a printed
text only if its scalars are spelled there as they were: texts exactly, numbers as integers
(`EmbeddingConfig.ofTree?_iff`, `SearchConfig.ofTree?_iff`).  The storage mode is read as a
value from the start, so it cannot change (`StorageMode.ofTree?_congr`), and a metric that
was set is there (`StorageConfig.ofTree?_setField`).
-/
import Retrieval.Proofs.Config.Tree
import Retrieval.Proofs.Yaml.Printed

namespace Retrieval

set_option autoImplicit false

open Yaml (Tree Value)
open Yaml.Value (AreClear FieldsRead IsPlain ItemsRead SlotReads exists_fieldsRead exists_itemsRead
  fieldsRead_of_mapping itemsRead_of_sequence under)

/-- The value under a name in a mapping, tags aside. -/
def Yaml.Value.entry? (name : String) (v : Value) : Option Value := (under name v.fields).head?

/-! ## Sections by their columns -/

section Columns

variable {t : Tree}

theorem EmbeddingConfig.ofTree?_eq_some {c : EmbeddingConfig} :
    EmbeddingConfig.ofTree? t = some c ↔
      ∃ model baseUrl dimension,
        t.columns? ["model", "base_url", "dimension"] = some [model, baseUrl, dimension] ∧
        model.bind Tree.text? = some c.model ∧ baseUrl.bind Tree.text? = some c.baseUrl ∧
        Tree.column? none Tree.optionalWord? dimension = some c.dimension := by
  constructor
  · intro found
    obtain ⟨slots, columns, found⟩ := Option.bind_eq_some_iff.1 found
    split at found
    · rename_i model baseUrl dimension
      obtain ⟨text, isModel, found⟩ := Option.bind_eq_some_iff.1 found
      obtain ⟨address, isAddress, found⟩ := Option.bind_eq_some_iff.1 found
      obtain ⟨number, isNumber, found⟩ := Option.bind_eq_some_iff.1 found
      cases found
      exact ⟨model, baseUrl, dimension, columns, isModel, isAddress, isNumber⟩
    · cases found
  · rintro ⟨model, baseUrl, dimension, columns, isModel, isAddress, isNumber⟩
    obtain ⟨model, rfl, text⟩ := Option.bind_eq_some_iff.1 isModel
    obtain ⟨baseUrl, rfl, address⟩ := Option.bind_eq_some_iff.1 isAddress
    simp [EmbeddingConfig.ofTree?, columns, text, address, isNumber]

theorem StorageConfig.ofTree?_eq_some {c : StorageConfig} :
    StorageConfig.ofTree? t = some c ↔
      ∃ mode metric, t.columns? ["storage_mode", "metric"] = some [mode, metric] ∧
        Tree.column? .ephemeral StorageMode.ofTree? mode = some c.mode ∧
        Tree.column? .cosine Metric.ofTree? metric = some c.metric := by
  constructor
  · intro found
    obtain ⟨slots, columns, found⟩ := Option.bind_eq_some_iff.1 found
    split at found
    · rename_i mode metric
      obtain ⟨m, isMode, found⟩ := Option.bind_eq_some_iff.1 found
      obtain ⟨n, isMetric, found⟩ := Option.bind_eq_some_iff.1 found
      cases found
      exact ⟨mode, metric, columns, isMode, isMetric⟩
    · cases found
  · rintro ⟨mode, metric, columns, isMode, isMetric⟩
    simp [StorageConfig.ofTree?, columns, isMode, isMetric]

theorem SearchConfig.ofTree?_eq_some {c : SearchConfig} :
    SearchConfig.ofTree? t = some c ↔
      ∃ topK, t.columns? ["top_k"] = some [topK] ∧
        Tree.column? 4 Tree.word? topK = some c.topK := by
  constructor
  · intro found
    obtain ⟨slots, columns, found⟩ := Option.bind_eq_some_iff.1 found
    split at found
    · rename_i topK
      obtain ⟨n, isNumber, found⟩ := Option.bind_eq_some_iff.1 found
      cases found
      exact ⟨topK, columns, isNumber⟩
    · cases found
  · rintro ⟨topK, columns, isNumber⟩
    simp [SearchConfig.ofTree?, columns, isNumber]

theorem Config.ofTree?_eq_some {c : Config} :
    Config.ofTree? t = some c ↔
      ∃ embedding storage search,
        t.columns? ["embedding", "storage", "search"] = some [embedding, storage, search] ∧
        Tree.column? {} EmbeddingConfig.ofTree? embedding = some c.embedding ∧
        Tree.column? {} StorageConfig.ofTree? storage = some c.storage ∧
        Tree.column? {} SearchConfig.ofTree? search = some c.search := by
  constructor
  · intro found
    obtain ⟨slots, columns, found⟩ := Option.bind_eq_some_iff.1 found
    split at found
    · rename_i embedding storage search
      obtain ⟨e, isEmbedding, found⟩ := Option.bind_eq_some_iff.1 found
      obtain ⟨st, isStorage, found⟩ := Option.bind_eq_some_iff.1 found
      obtain ⟨se, isSearch, found⟩ := Option.bind_eq_some_iff.1 found
      cases found
      exact ⟨embedding, storage, search, columns, isEmbedding, isStorage, isSearch⟩
    · cases found
  · rintro ⟨embedding, storage, search, columns, isEmbedding, isStorage, isSearch⟩
    simp [Config.ofTree?, columns, isEmbedding, isStorage, isSearch]

end Columns

/-! ## Embeddings and searches -/

section Sections

variable {old t : Tree} {v : Value} {m : Metric}

/-- The section on embeddings is spelled in a value as it was written. -/
structure EmbeddingConfig.IsSpelled (v : Value) (c : EmbeddingConfig) : Prop where
  model : ∀ x ∈ v.entry? "model", x.spelling? = some c.model
  baseUrl : ∀ x ∈ v.entry? "base_url", x.spelling? = some c.baseUrl
  dimension : ∀ x ∈ v.entry? "dimension", x = .null ∨ x.isInteger = true

/-- The section on searches is a mapping, and its number is an integer. -/
structure SearchConfig.IsSpelled (v : Value) : Prop where
  isMapping : v.bare = .mapping v.fields
  topK : ∀ x ∈ v.entry? "top_k", x.isInteger = true

instance (v : Value) : Decidable (SearchConfig.IsSpelled v) :=
  decidable_of_iff (v.bare = .mapping v.fields ∧ ∀ x ∈ v.entry? "top_k", x.isInteger = true)
    ⟨fun ⟨isMapping, topK⟩ => ⟨isMapping, topK⟩, fun ⟨isMapping, topK⟩ => ⟨isMapping, topK⟩⟩

theorem EmbeddingConfig.isSpelled_iff {c : EmbeddingConfig} :
    EmbeddingConfig.IsSpelled v c ↔
      (∀ x ∈ v.entry? "model", x.spelling? = some c.model) ∧
      (∀ x ∈ v.entry? "base_url", x.spelling? = some c.baseUrl) ∧
      ∀ x ∈ v.entry? "dimension", x = .null ∨ x.isInteger = true :=
  ⟨fun ⟨model, baseUrl, dimension⟩ => ⟨model, baseUrl, dimension⟩,
    fun ⟨model, baseUrl, dimension⟩ => ⟨model, baseUrl, dimension⟩⟩

instance (v : Value) (c : EmbeddingConfig) : Decidable (EmbeddingConfig.IsSpelled v c) :=
  decidable_of_iff _ EmbeddingConfig.isSpelled_iff.symm

/-- **The section on embeddings means the same in a printed text** exactly when it is
spelled in the value as it was. -/
theorem EmbeddingConfig.ofTree?_iff {c : EmbeddingConfig}
    (found : EmbeddingConfig.ofTree? old = some c) (before : Value.ofTree? old = some v)
    (value : Value.ofTree? t = some v) (printed : t.isPrinted = true) :
    EmbeddingConfig.ofTree? t = some c ↔ EmbeddingConfig.IsSpelled v c := by
  obtain ⟨model, baseUrl, dimension, columns, isModel, isAddress, isNumber⟩ :=
    EmbeddingConfig.ofTree?_eq_some.1 found
  obtain ⟨p, trees, rfl⟩ | ⟨p, rfl, free⟩ := Tree.columns?_cases columns
  · obtain ⟨isMapping, _, read⟩ := fieldsRead_of_mapping before
    obtain ⟨p', others, rfl, read'⟩ := exists_fieldsRead value isMapping
    have plain : ∀ name ∈ ["model", "base_url", "dimension"],
        Yaml.Scalar.isAmbiguous name = false := by decide +kernel
    obtain ⟨clear, heads⟩ := (read.columns?_eq_some (by decide) plain).1 columns
    have columns' := (read'.columns?_eq_some (p := p') (by decide) plain).2 ⟨clear, rfl⟩
    simp only [List.map_cons, List.map_nil, List.cons.injEq, and_true] at heads columns'
    obtain ⟨rfl, rfl, rfl⟩ := heads
    have text := Tree.bind_text?_iff (read.head (plain "model" (by simp)))
      (read'.head (plain "model" (by simp))) (Tree.isPrinted_of_head printed) isModel
    have address := Tree.bind_text?_iff (read.head (plain "base_url" (by simp)))
      (read'.head (plain "base_url" (by simp))) (Tree.isPrinted_of_head printed) isAddress
    have number := Tree.column?_iff (read.head (plain "dimension" (by simp)))
      (read'.head (plain "dimension" (by simp))) (Tree.isPrinted_of_head printed)
      (fun _ _ _ => Tree.optionalWord?_iff) isNumber
    rw [EmbeddingConfig.ofTree?_eq_some, EmbeddingConfig.isSpelled_iff, columns']
    refine Iff.trans ?_ (and_congr text (and_congr address number))
    simp
  · cases free
    cases isModel

/-- **The section on searches means the same in a printed text** exactly when it is a mapping
there, with an integer for its number. -/
theorem SearchConfig.ofTree?_iff {c : SearchConfig}
    (found : SearchConfig.ofTree? old = some c) (before : Value.ofTree? old = some v)
    (value : Value.ofTree? t = some v) (printed : t.isPrinted = true) :
    SearchConfig.ofTree? t = some c ↔ SearchConfig.IsSpelled v := by
  obtain ⟨topK, columns, isNumber⟩ := SearchConfig.ofTree?_eq_some.1 found
  obtain ⟨p, trees, rfl⟩ | ⟨p, rfl, _⟩ := Tree.columns?_cases columns
  · obtain ⟨isMapping, _, read⟩ := fieldsRead_of_mapping before
    obtain ⟨p', others, rfl, read'⟩ := exists_fieldsRead value isMapping
    have plain : ∀ name ∈ ["top_k"], Yaml.Scalar.isAmbiguous name = false := by decide +kernel
    obtain ⟨clear, heads⟩ := (read.columns?_eq_some (by decide) plain).1 columns
    have columns' := (read'.columns?_eq_some (p := p') (by decide) plain).2 ⟨clear, rfl⟩
    simp only [List.map_cons, List.map_nil, List.cons.injEq, and_true] at heads columns'
    cases heads
    have number := Tree.column?_iff (read.head (plain "top_k" (by simp)))
      (read'.head (plain "top_k" (by simp))) (Tree.isPrinted_of_head printed)
      (fun _ _ _ => Tree.word?_iff_isInteger) isNumber
    have parts : SearchConfig.IsSpelled v ↔ ∀ x ∈ v.entry? "top_k", x.isInteger = true :=
      ⟨fun spelled => spelled.topK, fun number => ⟨isMapping, number⟩⟩
    rw [SearchConfig.ofTree?_eq_some, parts, columns']
    refine Iff.trans ?_ number
    simp
  · -- nothing was written, and a printed text says so
    have scalar := (Value.isSome_text?_iff before).1 rfl
    refine iff_of_false (fun there => ?_) (fun spelled => ?_)
    · obtain ⟨_, columns', _⟩ := SearchConfig.ofTree?_eq_some.1 there
      rw [Tree.columns?, Tree.fields?_of_isPrinted printed value scalar] at columns'
      cases columns'
    · rw [Value.isScalar, spelled.isMapping] at scalar
      cases scalar

/-! ## Storage -/

/-- The kind of a mode is told by the value. -/
theorem StorageMode.Kind.ofTree?_congr (value : Value.ofTree? old = some v)
    (value' : Value.ofTree? t = some v) : Kind.ofTree? old = Kind.ofTree? t := by
  have byText (t : Tree) : Kind.ofTree? t =
      if t.text? = some "ephemeral" then some .ephemeral
      else if t.text? = some "durable" then some .durable else none := by
    unfold Kind.ofTree?
    split
    · rfl
    · rfl
    · rename_i noEphemeral noDurable
      cases t with
      | scalar p style text =>
          have first : text ≠ "ephemeral" := fun same => noEphemeral p style (by rw [same])
          have second : text ≠ "durable" := fun same => noDurable p style (by rw [same])
          simp [Tree.text?, first, second]
      | _ => simp [Tree.text?]
  have same (name : String) (plain : Yaml.Scalar.isAmbiguous name = false) :
      old.text? = some name ↔ t.text? = some name :=
    (Value.text?_eq_iff plain value).trans (Value.text?_eq_iff plain value').symm
  simp only [byText, same "ephemeral" (by decide +kernel),
    same "durable" (by decide +kernel)]

theorem StorageMode.untagged?_congr (value : Value.ofTree? old = some v)
    (value' : Value.ofTree? t = some v) : untagged? old = untagged? t := by
  rw [untagged?, value, untagged?, value']

theorem StorageMode.takeKind_congr {trees others : List (Tree × Tree)}
    {fields : List (Value × Value)} (read : FieldsRead trees fields)
    (read' : FieldsRead others fields) : takeKind trees = takeKind others := by
  induction read generalizing others with
  | nil =>
      cases read'
      rfl
  | @cons field pair trees fields first more ih =>
      cases read' with
      | @cons field' _ others _ first' more' =>
          obtain ⟨key, value⟩ := field
          obtain ⟨key', value'⟩ := field'
          rw [takeKind, takeKind, untagged?_congr first.1 first'.1,
            untagged?_congr first.2 first'.2, Kind.ofTree?_congr first.2 first'.2, ih more']

theorem StorageMode.untaggedItems_congr {trees others : List Tree} {items : List Value}
    (read : ItemsRead trees items) (read' : ItemsRead others items) :
    trees.mapM untagged? = others.mapM untagged? := by
  induction read generalizing others with
  | nil =>
      cases read'
      rfl
  | cons first more ih =>
      cases read' with
      | cons first' more' =>
          rw [List.mapM_cons, List.mapM_cons, untagged?_congr first first', ih more']

/-- **The storage mode is told by the value:** two trees with one value have one mode. -/
theorem StorageMode.ofTree?_congr (value : Value.ofTree? old = some v)
    (value' : Value.ofTree? t = some v) : StorageMode.ofTree? old = StorageMode.ofTree? t := by
  cases old with
  | reference name => nomatch name
  | scalar p style text =>
      have scalar := (Value.isSome_text?_iff value).1 rfl
      obtain ⟨p', style', text', rfl, _⟩ := Value.exists_scalar value' scalar
      rfl
  | sequence p trees =>
      obtain ⟨items, isSequence, tagged, read⟩ := itemsRead_of_sequence value
      obtain ⟨p', others, rfl⟩ := exists_itemsRead value' isSequence
      obtain ⟨items', same, tagged', read'⟩ := itemsRead_of_sequence value'
      rw [isSequence] at same
      cases same
      cases read with
      | nil =>
          cases read'
          rfl
      | @cons kind item trees items first more =>
          cases read' with
          | @cons kind' _ others _ first' more' =>
              unfold StorageMode.ofTree?
              dsimp only
              rw [← tagged, ← tagged', Kind.ofTree?_congr first first',
                untaggedItems_congr more more']
  | mapping p trees =>
      obtain ⟨isMapping, tagged, read⟩ := fieldsRead_of_mapping value
      obtain ⟨p', others, rfl, read'⟩ := exists_fieldsRead value' isMapping
      obtain ⟨_, tagged', _⟩ := fieldsRead_of_mapping value'
      unfold StorageMode.ofTree?
      dsimp only
      rw [← tagged, ← tagged', takeKind_congr read read']

theorem StorageMode.column?_congr {slot slot' : Option Tree} {x : Option Value}
    (read : SlotReads slot x) (read' : SlotReads slot' x) :
    Tree.column? .ephemeral StorageMode.ofTree? slot =
      Tree.column? .ephemeral StorageMode.ofTree? slot' := by
  cases x with
  | none => rw [read.none_right, read'.none_right]
  | some v =>
      obtain ⟨t, rfl, value⟩ := read.exists_left
      obtain ⟨t', rfl, value'⟩ := read'.exists_left
      exact StorageMode.ofTree?_congr value value'

/-- A metric that was written by its name is read. -/
theorem Metric.ofTree?_name (value : Value.ofTree? t = some (.string m.name)) :
    Metric.ofTree? t = some m := by
  obtain ⟨p, style, text, rfl, stands, untagged⟩ := Value.exists_scalar value rfl
  have none : Value.ownName? p.tag = none := by
    have tagged : false = (Value.ownName? p.tag).isSome :=
      (congrArg Value.isTagged untagged).symm.trans (Value.isTagged_withTag p.tag rfl)
    exact Option.not_isSome_iff_eq_none.1 (by simp [← tagged])
  have named : m.name = text := (Value.ofScalar?_eq_some stands).2.2 m.name rfl
  unfold Metric.ofTree?
  dsimp only
  rw [none, ← named]
  exact Metric.ofName?_name m

/-- **A metric that is set in the section on storage is read there,** with the storage mode
that was there, exactly when no key of that name has a tag. -/
theorem StorageConfig.ofTree?_setField {fields : List (Value × Value)} {slot : Option Tree}
    {mode : StorageMode} (clear : AreClear ["storage_mode", "metric"] fields)
    (read : SlotReads slot (under "storage_mode" fields).head?)
    (found : Tree.column? .ephemeral StorageMode.ofTree? slot = some mode)
    (value : Value.ofTree? t =
      some (.mapping (Value.setField "metric" (.string m.name) fields))) :
    StorageConfig.ofTree? t = some { mode, metric := m } ↔ IsPlain "metric" fields := by
  obtain ⟨p, others, rfl, read'⟩ := exists_fieldsRead value rfl
  have plain : ∀ name ∈ ["storage_mode", "metric"], Yaml.Scalar.isAmbiguous name = false := by
    decide +kernel
  have columns (slots : List (Option Tree)) :
      Tree.columns? _ (.mapping p others) = some slots ↔ _ :=
    read'.columns?_eq_some (by decide) plain
  rw [StorageConfig.ofTree?_eq_some]
  constructor
  · rintro ⟨mode', metric', found', _⟩
    exact (Value.areClear_setField clear (by simp)).1 ((columns _).1 found').1
  · intro untagged
    have headMode := read'.head (plain "storage_mode" (by simp))
    rw [Value.under_setField_of_ne (by decide)] at headMode
    have headMetric := read'.head (plain "metric" (by simp))
    rw [Value.under_setField (clear.2 "metric" (by simp)) untagged] at headMetric
    obtain ⟨metric', there, value'⟩ := headMetric.exists_left
    refine ⟨_, _, (columns _).2 ⟨(Value.areClear_setField clear (by simp)).2 untagged, rfl⟩, ?_, ?_⟩
    · rw [← StorageMode.column?_congr read headMode, found]
    · dsimp only
      rw [there]
      exact Metric.ofTree?_name value'

end Sections

end Retrieval
