/-
# Retrieval.Proofs.CommandLine.SetMetric -- what changes when the metric is set

The command reads the file of a configuration as a value and writes the value back.  The
configuration itself is read from the text, so a scalar that is written back in another
spelling may mean something else: of a model `0x10` the file says `16` afterwards.  What the
command keeps is told by the value of the file (`Keeps`), and it keeps a configuration
exactly then (`load_setMetric`), provided that values can be read back from their texts
(`Value.IsLegible`).
-/
import Retrieval.CommandLine.SetMetric
import Retrieval.Proofs.Config.Printed
import Retrieval.Proofs.Disk.File
import Retrieval.Proofs.Except

namespace Retrieval

set_option autoImplicit false

open Yaml (Tree Value)
open Yaml.Value (AreClear FieldsRead IsPlain SlotReads exists_fieldsRead fieldsRead_of_mapping
  under)

/-- A value is read back from its text, where its scalars stand in their spelling. -/
def Yaml.Value.IsLegible (v : Value) : Prop :=
  Value.read? v.text = some v ∧ (Tree.read? v.text).all Tree.isPrinted = true

instance (v : Value) : Decidable v.IsLegible := inferInstanceAs (Decidable (_ ∧ _))

namespace CommandLine

variable {disk after : Disk} {path name said : String} {m : Metric} {v w : Value} {c : Config}
  {old t : Tree}

/-! ## The new value -/

theorem withMetric_eq_ok (done : withMetric path m v = .ok w) :
    v.bare = .mapping v.fields ∧
      ∃ storage, storageFields? (Value.field? "storage" v.fields) = some storage ∧
        w.bare = .mapping (Value.setField "storage"
          (.mapping (Value.setField "metric" (.string m.name) storage)) v.fields) := by
  fun_induction withMetric path m v generalizing w with
  | case1 fields none => cases done
  | case2 fields storage found =>
      cases done
      exact ⟨rfl, storage, found, rfl⟩
  | case3 tag v ih =>
      cases changed : withMetric path m v with
      | error e =>
          rw [changed] at done
          cases done
      | ok u =>
          rw [changed] at done
          cases done
          have inner := ih changed
          exact inner
  | case4 v noMapping noTag => cases done

/-- Where no key has a tag, a key is found as a string wherever it is found by its name. -/
theorem field?_eq {name : String} {fields : List (Value × Value)} (plain : IsPlain name fields) :
    Value.field? name fields = (under name fields).head? := by
  induction fields with
  | nil => rfl
  | cons field fields ih =>
      obtain ⟨k, x⟩ := field
      have rest : IsPlain name fields :=
        fun field member => plain field (List.mem_cons_of_mem _ member)
      rw [Value.under_cons]
      by_cases named : k.name? = some name
      · have same : k = .string name := plain (k, x) List.mem_cons_self named
        have agrees : Value.agree (.string name) k = true := Value.agree_string_iff.2 same
        simp [Value.field?, agrees, named]
      · have differs : Value.agree (.string name) k = false := by
          rw [Bool.eq_false_iff]
          intro agrees
          rw [Value.agree_string_iff.1 agrees] at named
          exact named rfl
        simpa [Value.field?, differs, named] using ih rest

/-! ## The new configuration -/

/-- A configuration as the value of its file says it, where it is written back: no key that
is set has a tag, and the sections mean the same in the spelling of the value. -/
structure Keeps (v : Value) (c : Config) : Prop where
  storage : IsPlain "storage" v.fields
  metric : ∀ s ∈ v.entry? "storage", IsPlain "metric" s.fields
  embedding : ∀ e ∈ v.entry? "embedding", EmbeddingConfig.IsSpelled e c.embedding
  search : ∀ s ∈ v.entry? "search", SearchConfig.IsSpelled s

theorem keeps_iff :
    Keeps v c ↔ IsPlain "storage" v.fields ∧
      (∀ e ∈ v.entry? "embedding", EmbeddingConfig.IsSpelled e c.embedding) ∧
      (∀ s ∈ v.entry? "storage", IsPlain "metric" s.fields) ∧
      ∀ s ∈ v.entry? "search", SearchConfig.IsSpelled s :=
  ⟨fun ⟨storage, metric, embedding, search⟩ => ⟨storage, embedding, metric, search⟩,
    fun ⟨storage, embedding, metric, search⟩ => ⟨storage, metric, embedding, search⟩⟩

instance (v : Value) (c : Config) : Decidable (Keeps v c) := decidable_of_iff _ keeps_iff.symm

/-- The section on storage that is written back, for each of those that can be there. -/
theorem storage_withMetric {slot : Option Tree} {x : Option Value} {s : StorageConfig}
    {fields : List (Value × Value)} (read : SlotReads slot x)
    (found : Tree.column? {} StorageConfig.ofTree? slot = some s)
    (isStorage : storageFields? x = some fields)
    (value : Value.ofTree? t =
      some (.mapping (Value.setField "metric" (.string m.name) fields))) :
    StorageConfig.ofTree? t = some { s with metric := m } ↔ ∀ v ∈ x, IsPlain "metric" v.fields := by
  have empty : AreClear ["storage_mode", "metric"] [] := by simp [AreClear, under]
  have nothing : SlotReads none (under "storage_mode" []).head? := rfl
  unfold storageFields? at isStorage
  split at isStorage
  · cases isStorage
    rw [read.none_right] at found
    cases found
    refine (StorageConfig.ofTree?_setField empty nothing rfl value).trans ?_
    simp [IsPlain]
  · cases isStorage
    obtain ⟨old, rfl, before⟩ := read.exists_left
    obtain ⟨mode, metric, columns, isMode, _⟩ := StorageConfig.ofTree?_eq_some.1 found
    obtain ⟨p, trees, rfl⟩ | ⟨p, rfl, free⟩ := Tree.columns?_cases columns
    · cases (fieldsRead_of_mapping before).1
    · cases free
      refine (StorageConfig.ofTree?_setField empty nothing isMode value).trans ?_
      simp [IsPlain, Value.fields, Value.bare]
  · cases isStorage
    obtain ⟨old, rfl, before⟩ := read.exists_left
    obtain ⟨p, trees, rfl, inside⟩ := exists_fieldsRead before rfl
    obtain ⟨mode, metric, columns, isMode, _⟩ := StorageConfig.ofTree?_eq_some.1 found
    have plain : ∀ name ∈ ["storage_mode", "metric"], Yaml.Scalar.isAmbiguous name = false := by
      decide +kernel
    obtain ⟨clear, heads⟩ := (inside.columns?_eq_some (by decide) plain).1 columns
    simp only [List.map_cons, List.map_nil, List.cons.injEq, and_true] at heads
    rw [← heads.1] at isMode
    refine (StorageConfig.ofTree?_setField clear (inside.head (plain "storage_mode" (by simp)))
      isMode value).trans ?_
    simp [Value.fields, Value.bare]
  · cases isStorage

/-- **The tree of the value that is written back has the configuration with the other
metric** exactly when the value keeps it. -/
theorem ofTree?_withMetric (found : Config.ofTree? old = some c)
    (before : Value.ofTree? old = some v) (done : withMetric path m v = .ok w)
    (value : Value.ofTree? t = some w) (printed : t.isPrinted = true) :
    Config.ofTree? t = some { c with storage := { c.storage with metric := m } } ↔ Keeps v c := by
  obtain ⟨isMapping, storage, isStorage, changed⟩ := withMetric_eq_ok done
  obtain ⟨p, trees, rfl, read⟩ := exists_fieldsRead before isMapping
  obtain ⟨p', others, rfl, read'⟩ := exists_fieldsRead value changed
  have plain : ∀ name ∈ ["embedding", "storage", "search"],
      Yaml.Scalar.isAmbiguous name = false := by decide +kernel
  obtain ⟨embedding, st, search, columns, isEmbedding, isSt, isSearch⟩ :=
    Config.ofTree?_eq_some.1 found
  obtain ⟨clear, heads⟩ := (read.columns?_eq_some (by decide) plain).1 columns
  simp only [List.map_cons, List.map_nil, List.cons.injEq, and_true] at heads
  obtain ⟨rfl, rfl, rfl⟩ := heads
  have columns' (slots : List (Option Tree)) :
      Tree.columns? _ (.mapping p' others) = some slots ↔ _ :=
    read'.columns?_eq_some (by decide) plain
  by_cases untagged : IsPlain "storage" v.fields
  · have readEmbedding := read'.head (plain "embedding" (by simp))
    have readStorage := read'.head (plain "storage" (by simp))
    have readSearch := read'.head (plain "search" (by simp))
    rw [Value.under_setField_of_ne (by decide)] at readEmbedding readSearch
    rw [Value.under_setField (clear.2 "storage" (by simp)) untagged] at readStorage
    obtain ⟨storage', there, value'⟩ := readStorage.exists_left
    have embeddingKept := Tree.column?_iff (read.head (plain "embedding" (by simp))) readEmbedding
      (Tree.isPrinted_of_head printed) (fun _ _ _ => EmbeddingConfig.ofTree?_iff) isEmbedding
    have searchKept := Tree.column?_iff (read.head (plain "search" (by simp))) readSearch
      (Tree.isPrinted_of_head printed) (fun _ _ _ => SearchConfig.ofTree?_iff) isSearch
    have storageKept := storage_withMetric (m := m) (read.head (plain "storage" (by simp))) isSt
      (by rw [← field?_eq untagged]; exact isStorage) value'
    rw [Config.ofTree?_eq_some, keeps_iff, and_iff_right untagged, (columns' _).2
      ⟨(Value.areClear_setField clear (by simp)).2 untagged, rfl⟩]
    refine Iff.trans ?_ (and_congr embeddingKept (and_congr storageKept searchKept))
    simp [there, Tree.column?]
  · refine iff_of_false (fun there => ?_) fun keeps => untagged keeps.storage
    obtain ⟨_, _, _, found', _⟩ := Config.ofTree?_eq_some.1 there
    exact untagged ((Value.areClear_setField clear (by simp)).1 ((columns' _).1 found').1)

/-! ## The file -/

theorem text?_eq_some {shown : List Char} :
    v.text? = some shown ↔ v.isWritable false = true ∧ v.text = shown := by
  unfold Value.text?
  split <;> simp_all

theorem isSome_text? : v.text?.isSome = true ↔ v.isWritable false = true := by
  simp [Option.isSome_iff_exists, text?_eq_some]

/-- A change of the metric succeeds when each of its steps does. -/
theorem setMetric_eq_ok_iff :
    setMetric disk path name = .ok (said, after) ↔
      ∃ m text v w, Metric.parse? name = some m ∧ disk.readText path = .ok text ∧
        Value.read? text = some v ∧ withMetric path m v = .ok w ∧ w.isWritable false = true ∧
        disk.write path (Bytes.ofText w.text) = .ok after ∧ said = metricSet m := by
  constructor
  · intro done
    obtain ⟨m, isMetric, done⟩ := bind_eq_ok_iff.1 done
    obtain ⟨text, isText, done⟩ := bind_eq_ok_iff.1 done
    obtain ⟨v, isValue, done⟩ := bind_eq_ok_iff.1 done
    obtain ⟨w, changed, done⟩ := bind_eq_ok_iff.1 done
    obtain ⟨shown, isShown, done⟩ := bind_eq_ok_iff.1 done
    obtain ⟨written, isWritten, done⟩ := bind_eq_ok_iff.1 done
    cases done
    obtain ⟨writable, rfl⟩ := text?_eq_some.1 (getD_eq_ok_iff.1 isShown)
    exact ⟨m, text, v, w, getD_eq_ok_iff.1 isMetric, mapError_eq_ok_iff.1 isText,
      getD_eq_ok_iff.1 isValue, changed, writable, mapError_eq_ok_iff.1 isWritten, rfl⟩
  · rintro ⟨m, text, v, w, isMetric, isText, isValue, changed, writable, written, rfl⟩
    have shown := text?_eq_some.2 ⟨writable, rfl⟩
    simp [setMetric, isMetric, isText, isValue, changed, shown, written, bind, Except.bind,
      Except.mapError, pure, Except.pure]

/-- What a change of the metric that succeeds has done. -/
theorem setMetric_eq_ok (done : setMetric disk path name = .ok (said, after)) :
    ∃ m text v w, Metric.parse? name = some m ∧ disk.readText path = .ok text ∧
      Value.read? text = some v ∧ withMetric path m v = .ok w ∧
      disk.write path (Bytes.ofText w.text) = .ok after := by
  obtain ⟨m, text, v, w, isMetric, isText, isValue, changed, _, written, _⟩ :=
    setMetric_eq_ok_iff.1 done
  exact ⟨m, text, v, w, isMetric, isText, isValue, changed, written⟩

/-- **Setting the metric changes nothing else that is loaded,** if the value of the file keeps
the configuration, and only then: where it does not, another configuration or none is loaded. -/
theorem load_setMetric (loaded : Config.load disk path = .ok c)
    (done : setMetric disk path name = .ok (said, after)) :
    ∃ m text v w, Metric.parse? name = some m ∧ disk.readText path = .ok text ∧
      Value.read? text = some v ∧ withMetric path m v = .ok w ∧
      (w.IsLegible →
        (Config.load after path = .ok { c with storage := { c.storage with metric := m } } ↔
          Keeps v c)) := by
  obtain ⟨m, text, v, w, isMetric, isText, isValue, changed, written⟩ := setMetric_eq_ok done
  refine ⟨m, text, v, w, isMetric, isText, isValue, changed, fun ⟨readBack, printed⟩ => ?_⟩
  obtain ⟨old, grown, before⟩ := Value.exists_tree_of_read? isValue
  obtain ⟨t, regrown, value⟩ := Value.exists_tree_of_read? readBack
  rw [regrown, Option.all_some] at printed
  have found : Config.ofTree? old = some c := by
    unfold Config.load at loaded
    rw [isText] at loaded
    dsimp only at loaded
    rw [Config.read?_of_tree grown] at loaded
    split at loaded
    · cases loaded
    · rename_i same
      cases loaded
      exact same
  rw [← ofTree?_withMetric found before changed value printed]
  unfold Config.load
  rw [Disk.readText_write written]
  dsimp only
  rw [Config.read?_of_tree regrown]
  cases Config.ofTree? t <;> simp

/-- A working folder with the file of a configuration. -/
def configured (text : String) : Disk where
  root := [("config.yaml", .file (Bytes.ofText text.toList))]

/-- A file with a model that looks like a number but is quoted, and a number in another base. -/
def annotated : String :=
  "embedding:\n  model: \"8\" # local\n  base_url: u\n  dimension: 0x10\n" ++
    "storage:\n  storage_mode: [durable, d]\n"

/-- The configuration in that file. -/
def annotatedConfig : Config where
  embedding := { model := "8", baseUrl := "u", dimension := some 16 }
  storage := { mode := .durable "d" }

theorem load_setMetric_annotated :
    Config.load (configured annotated) "config.yaml" = .ok annotatedConfig ∧
    ∃ said after, setMetric (configured annotated) "config.yaml" "Dot" = .ok (said, after) ∧
      Config.load after "config.yaml" =
        .ok { annotatedConfig with storage := { mode := .durable "d", metric := .dot } } := by
  have loaded : Config.load (configured annotated) "config.yaml" = .ok annotatedConfig := by
    decide +kernel
  have succeeds : (setMetric (configured annotated) "config.yaml" "Dot").isOk = true := by
    decide +kernel
  have kept : (((configured annotated).readText "config.yaml").toOption.bind Value.read?).any
      (fun v => Keeps v annotatedConfig ∧
        (withMetric "config.yaml" .dot v).toOption.any fun w => w.IsLegible) = true := by
    decide +kernel
  cases done : setMetric (configured annotated) "config.yaml" "Dot" with
  | error e =>
      rw [done] at succeeds
      cases succeeds
  | ok result =>
      obtain ⟨said, after⟩ := result
      obtain ⟨m, text, v, w, isMetric, isText, isValue, changed, exactly⟩ :=
        load_setMetric loaded done
      have dot : m = .dot := Option.some.inj (isMetric.symm.trans (by decide +kernel))
      subst dot
      rw [isText, Except.toOption, Option.bind_some, isValue, Option.any_some, changed,
        Except.toOption, Option.any_some, decide_eq_true_eq, decide_eq_true_eq] at kept
      exact ⟨loaded, said, after, rfl, (exactly kept.2).2 kept.1⟩

/-- A file with a model that is a number in another base. -/
def numbered : String := "embedding:\n  model: 0x10\n  base_url: u\n"

/-- The value of that file with another metric. -/
def renumbered : Value :=
  .mapping [
    (.string "embedding",
      .mapping [(.string "model", .integer 16), (.string "base_url", .string "u")]),
    (.string "storage", .mapping [(.string "metric", .string "euclidean")])]

/-- **Setting the metric can change the model:** it was `0x10`, and is `16` afterwards, though
what was written is read back as it is. -/
theorem setMetric_respells_model :
    Config.load (configured numbered) "config.yaml" =
      .ok { embedding := { model := "0x10", baseUrl := "u" } } ∧
    ∃ said after, setMetric (configured numbered) "config.yaml" "euclidean" = .ok (said, after) ∧
      after.readText "config.yaml" = .ok renumbered.text ∧ renumbered.IsLegible ∧
      Config.load after "config.yaml" =
        .ok {
          embedding := { model := "16", baseUrl := "u" }
          storage := { metric := .euclidean } } := by
  have done : (setMetric (configured numbered) "config.yaml" "euclidean").toOption.map
      (fun result => (result.2.readText "config.yaml", Config.load result.2 "config.yaml")) =
        some (.ok renumbered.text, .ok {
          embedding := { model := "16", baseUrl := "u" }
          storage := { metric := .euclidean } }) := by
    decide +kernel
  refine ⟨by decide +kernel, ?_⟩
  cases result : setMetric (configured numbered) "config.yaml" "euclidean" with
  | error e =>
      rw [result] at done
      cases done
  | ok pair =>
      rw [result] at done
      obtain ⟨isText, isConfig⟩ := Prod.mk.inj (Option.some.inj done)
      exact ⟨pair.1, pair.2, rfl, isText, by decide +kernel, isConfig⟩

end CommandLine

end Retrieval
