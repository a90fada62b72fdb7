/-
# Retrieval.Proofs.CommandLine.Editing -- setting the metric edits one entry

What the command does to the value of the file is said without the functions that do it: in
the fields of a mapping one value is replaced where it is, or added at the end, and nothing
else changes (`Value.Sets`).  The metric is set in the section on storage, and the section
in the value, behind whatever tags that has (`SetsMetric`).  This can be done exactly when
there is no such section, or nothing in it, or a mapping (`isSettable_iff`).

A value in which the metric was set takes another metric as the first value does
(`withMetric_again`), and where a file was read one can be written.  So the command, done
again, does what it would have done at first (`setMetric_again`), provided that the value is
read back from its text.
-/
import Retrieval.CommandLine.Run
import Retrieval.Proofs.CommandLine.SetMetric

namespace Retrieval

set_option autoImplicit false

open Yaml (Value)

/-- A metric is named in letters of either case. -/
theorem Metric.parse?_eq_some {name : String} {m : Metric} :
    Metric.parse? name = some m ↔ name.toList.map Char.toLower = m.name.toList := by
  have found (lower : String) : Metric.ofName? lower = some m ↔ lower = m.name := by
    constructor
    · intro found
      have same := List.find?_some found
      exact (of_decide_eq_true same).symm
    · rintro rfl
      exact Metric.ofName?_name m
  rw [Metric.parse?, found, String.ext_iff, String.toList_ofList]

namespace Yaml.Value

variable {name : String} {x : Value} {fields changed : List (Value × Value)}

/-! ## Setting one field -/

/-- Fields in which one value was set: where its key is, or at the end if that was not
there.  The fields before and behind it are the same. -/
inductive Sets (name : String) (x : Value) : List (Value × Value) → List (Value × Value) → Prop
  | replaced (before after : List (Value × Value)) (old : Value)
      (first : ∀ field ∈ before, field.1 ≠ string name) :
      Sets name x (before ++ (string name, old) :: after) (before ++ (string name, x) :: after)
  | added (fields : List (Value × Value)) (absent : ∀ field ∈ fields, field.1 ≠ string name) :
      Sets name x fields (fields ++ [(string name, x)])

theorem setField_append {before : List (Value × Value)}
    (first : ∀ field ∈ before, field.1 ≠ string name) (rest : List (Value × Value)) :
    setField name x (before ++ rest) = before ++ setField name x rest := by
  induction before with
  | nil => rfl
  | cons field before ih =>
      obtain ⟨other, later⟩ := List.forall_mem_cons.1 first
      have differs : ¬ agree (string name) field.1 = true :=
        fun same => other (agree_string_iff.1 same)
      rw [List.cons_append, setField, if_neg differs, ih later]
      rfl

/-- **Setting a field sets one value and does nothing else.** -/
theorem setField_eq_iff : setField name x fields = changed ↔ Sets name x fields changed := by
  have self : agree (string name) (string name) = true := agree_string_iff.2 rfl
  constructor
  · rintro rfl
    induction fields with
    | nil => exact .added [] nofun
    | cons field fields ih =>
        obtain ⟨k, old⟩ := field
        rw [setField]
        split
        · rename_i same
          rw [agree_string_iff.1 same]
          exact .replaced [] fields old nofun
        · rename_i differs
          have other : k ≠ string name := fun same => differs (agree_string_iff.2 same)
          generalize setField name x fields = changed at ih ⊢
          cases ih with
          | replaced before after old' first =>
              exact .replaced ((k, old) :: before) after old'
                (List.forall_mem_cons.2 ⟨other, first⟩)
          | added _ absent => exact .added _ (List.forall_mem_cons.2 ⟨other, absent⟩)
  · rintro (⟨before, after, old, first⟩ | ⟨_, absent⟩)
    · rw [setField_append first, setField, if_pos self]
    · have appended := setField_append (x := x) absent []
      rwa [List.append_nil] at appended

/-- Of two values that are set under one key only the second counts. -/
theorem setField_setField (name : String) (x y : Value) (fields : List (Value × Value)) :
    setField name y (setField name x fields) = setField name y fields := by
  have self : agree (string name) (string name) = true := agree_string_iff.2 rfl
  induction fields with
  | nil => simp [setField, self]
  | cons field fields ih =>
      obtain ⟨k, old⟩ := field
      by_cases same : agree (string name) k = true <;> simp [setField, same, ih]

/-- A value is found where it was set. -/
theorem field?_setField (name : String) (x : Value) (fields : List (Value × Value)) :
    field? name (setField name x fields) = some x := by
  have self : agree (string name) (string name) = true := agree_string_iff.2 rfl
  unfold field?
  induction fields with
  | nil => simp [setField, self]
  | cons field fields ih =>
      obtain ⟨k, old⟩ := field
      by_cases same : agree (string name) k = true
      · simp [setField, same]
      · simpa [setField, same] using ih

end Yaml.Value

namespace CommandLine

variable {disk after : Disk} {path name said : String} {m : Metric} {v w u : Value}

/-! ## Setting the metric in a value -/

/-- A value in which the metric was set, and nothing else: under the tags it has, its section
on storage was replaced or added, and in that section the metric. -/
inductive SetsMetric (m : Metric) : Value → Value → Prop
  | mapping {fields changed storage inside : List (Value × Value)}
      (isStorage : storageFields? (Value.field? "storage" fields) = some storage)
      (metric : Value.Sets "metric" (.string m.name) storage inside)
      (entry : Value.Sets "storage" (.mapping inside) fields changed) :
      SetsMetric m (.mapping fields) (.mapping changed)
  | tagged {v w : Value} (tag : String) (behind : SetsMetric m v w) :
      SetsMetric m (.tagged tag v) (.tagged tag w)

theorem withMetric_eq_ok_iff : withMetric path m v = .ok w ↔ SetsMetric m v w := by
  constructor
  · intro done
    fun_induction withMetric path m v generalizing w with
    | case1 fields none => cases done
    | case2 fields storage isStorage =>
        cases done
        exact .mapping isStorage (Value.setField_eq_iff.1 rfl) (Value.setField_eq_iff.1 rfl)
    | case3 tag v ih =>
        cases changed : withMetric path m v with
        | error e =>
            rw [changed] at done
            cases done
        | ok u =>
            rw [changed] at done
            cases done
            exact .tagged tag (ih changed)
    | case4 v noMapping noTag => cases done
  · intro sets
    induction sets with
    | mapping isStorage metric entry =>
        rw [withMetric, isStorage, ← Value.setField_eq_iff.2 entry,
          ← Value.setField_eq_iff.2 metric]
    | tagged tag behind ih =>
        rw [withMetric, ih]
        rfl

/-- The metric can be set in a value: tags aside it is a mapping, whose entry for storage is
not there, null or a mapping. -/
def IsSettable (v : Value) : Prop :=
  ∃ fields, v.bare = .mapping fields ∧
    (Value.field? "storage" fields = none ∨ Value.field? "storage" fields = some .null ∨
      ∃ storage, Value.field? "storage" fields = some (.mapping storage))

theorem exists_storageFields?_iff {x : Option Value} :
    (∃ storage, storageFields? x = some storage) ↔
      x = none ∨ x = some .null ∨ ∃ storage, x = some (.mapping storage) := by
  cases x with
  | none => simp [storageFields?]
  | some x => cases x <;> simp [storageFields?]

/-- **The metric can be set in a value exactly where there is a value in which it was.** -/
theorem isSettable_iff (m : Metric) : IsSettable v ↔ ∃ w, SetsMetric m v w := by
  constructor
  · rintro ⟨fields, isMapping, entry⟩
    obtain ⟨storage, isStorage⟩ := exists_storageFields?_iff.2 entry
    suffices done : ∃ w, withMetric "" m v = .ok w by
      obtain ⟨w, done⟩ := done
      exact ⟨w, withMetric_eq_ok_iff.1 done⟩
    fun_induction withMetric "" m v with
    | case1 others none =>
        cases isMapping
        rw [isStorage] at none
        cases none
    | case2 others storage isStorage => exact ⟨_, rfl⟩
    | case3 tag v ih =>
        obtain ⟨w, done⟩ := ih isMapping
        rw [done]
        exact ⟨_, rfl⟩
    | case4 v noMapping noTag =>
        cases v with
        | mapping others => exact absurd rfl (noMapping others)
        | tagged tag v => exact absurd rfl (noTag tag v)
        | _ => cases isMapping
  · rintro ⟨w, sets⟩
    induction sets with
    | mapping isStorage metric entry =>
        exact ⟨_, rfl, exists_storageFields?_iff.1 ⟨_, isStorage⟩⟩
    | tagged tag behind ih => exact ih

/-- **A value in which the metric was set takes another one as the first value does.** -/
theorem withMetric_again (sets : SetsMetric m v w) (path : String) (other : Metric) :
    withMetric path other w = withMetric path other v := by
  induction sets with
  | @mapping fields changed storage inside isStorage metric entry =>
      rw [← Value.setField_eq_iff.2 entry, ← Value.setField_eq_iff.2 metric, withMetric,
        withMetric, isStorage, Value.field?_setField]
      simp only [storageFields?, Value.setField_setField]
  | tagged tag behind ih => rw [withMetric, withMetric, ih]

/-- What was set is told by what it was set in. -/
theorem SetsMetric.unique (sets : SetsMetric m v w) (sets' : SetsMetric m v u) : w = u := by
  have done : withMetric "" m v = .ok w := withMetric_eq_ok_iff.2 sets
  exact Except.ok.inj (done.symm.trans (withMetric_eq_ok_iff.2 sets'))

theorem withMetric_eq_error {failure : Failure} (failed : withMetric path m v = .error failure) :
    failure = .rootNoMapping ∨ failure = .storageNoMapping path := by
  fun_induction withMetric path m v with
  | case1 fields none =>
      cases failed
      exact .inr rfl
  | case2 fields storage isStorage => cases failed
  | case3 tag v ih =>
      cases changed : withMetric path m v with
      | error e =>
          rw [changed] at failed
          cases failed
          exact ih changed
      | ok u =>
          rw [changed] at failed
          cases failed
  | case4 v noMapping noTag =>
      cases failed
      exact .inl rfl

/-! ## The command -/

/-- The metric that is asked for by a name, and the value of the file at a path. -/
structure Asks (disk : Disk) (path name : String) (m : Metric) (v : Value) : Prop where
  metric : name.toList.map Char.toLower = m.name.toList
  value : ∃ text, disk.readText path = .ok text ∧ Value.read? text = some v

theorem Asks.unique {m' : Metric} (asks : Asks disk path name m v)
    (asks' : Asks disk path name m' w) : m = m' ∧ v = w := by
  have isMetric := Metric.parse?_eq_some.2 asks.metric
  obtain ⟨text, isText, isValue⟩ := asks.value
  obtain ⟨text', isText', isValue'⟩ := asks'.value
  cases isText.symm.trans isText'
  exact ⟨Option.some.inj (isMetric.symm.trans (Metric.parse?_eq_some.2 asks'.metric)),
    Option.some.inj (isValue.symm.trans isValue')⟩

/-- The command succeeds where the metric was set in the value of the file and the new value
can be written. -/
theorem setMetric_eq_ok_iff_asks :
    setMetric disk path name = .ok (said, after) ↔
      ∃ m v w, Asks disk path name m v ∧ SetsMetric m v w ∧ w.text?.isSome = true ∧
        disk.write path (Bytes.ofText w.text) = .ok after ∧ said = metricSet m := by
  rw [setMetric_eq_ok_iff]
  constructor
  · rintro ⟨m, text, v, w, isMetric, isText, isValue, changed, writable, written, rfl⟩
    exact ⟨m, v, w, ⟨Metric.parse?_eq_some.1 isMetric, text, isText, isValue⟩,
      withMetric_eq_ok_iff.1 changed, isSome_text?.2 writable, written, rfl⟩
  · rintro ⟨m, v, w, ⟨isMetric, text, isText, isValue⟩, sets, writable, written, rfl⟩
    exact ⟨m, text, v, w, Metric.parse?_eq_some.2 isMetric, isText, isValue,
      withMetric_eq_ok_iff.2 sets, isSome_text?.1 writable, written, rfl⟩

/-- Where a value was read from a file, one can be written. -/
theorem exists_write {text : List Char} (isText : disk.readText path = .ok text)
    (content : Bytes) : ∃ after, disk.write path content = .ok after := by
  obtain ⟨bytes, isRead, -⟩ := Disk.readText_eq_ok.1 isText
  exact Disk.exists_write_of_read isRead content

/-- Writing the file does not fail, since it was read before. -/
theorem setMetric_ne_writing (cause : FileError) :
    setMetric disk path name ≠ .error (.writing cause) := by
  intro failed
  obtain unknown | ⟨m, -, failed⟩ := bind_eq_error_iff.1 failed
  · cases (getD_eq_error_iff.1 unknown).2
  obtain unread | ⟨text, isText, failed⟩ := bind_eq_error_iff.1 failed
  · obtain ⟨_, -, other⟩ := mapError_eq_error_iff.1 unread
    cases other
  obtain noValue | ⟨v, -, failed⟩ := bind_eq_error_iff.1 failed
  · cases (getD_eq_error_iff.1 noValue).2
  obtain unchanged | ⟨w, -, failed⟩ := bind_eq_error_iff.1 failed
  · rcases withMetric_eq_error unchanged with other | other <;> cases other
  obtain unshown | ⟨shown, -, failed⟩ := bind_eq_error_iff.1 failed
  · cases (getD_eq_error_iff.1 unshown).2
  obtain unwritten | ⟨after, -, failed⟩ := bind_eq_error_iff.1 failed
  · obtain ⟨_, refused, -⟩ := mapError_eq_error_iff.1 unwritten
    obtain ⟨after, written⟩ := exists_write (mapError_eq_ok_iff.1 isText) (Bytes.ofText shown)
    cases written.symm.trans refused
  · cases failed

/-- **The command, done again, does what it would have done at first,** where the value that
it wrote is read back. -/
theorem setMetric_again (asks : Asks disk path name m v) (sets : SetsMetric m v w)
    (written : disk.write path (Bytes.ofText w.text) = .ok after)
    (readBack : Value.read? w.text = some w) (other : String) :
    setMetric after path other = setMetric disk path other := by
  obtain ⟨text, isText, isValue⟩ := asks.value
  unfold setMetric
  rw [Disk.readText_write written, isText]
  simp only [Disk.write_write written]
  cases Metric.parse? other with
  | none => rfl
  | some m' =>
      simp only [Except.mapError, Option.map_some, Option.getD_some, readBack, isValue,
        withMetric_again sets, bind, Except.bind]

/-- **Setting the metric edits one entry or nothing.**  The command succeeds exactly when the
name is that of a metric, the file can be read as a value in which a metric can be set, and
the new value can be written.  Then the file is the text of that value; where it is read back,
the command done again does what it would have done at first, so that the last name counts.
A command that fails leaves everything as it was. -/
theorem setMetric_edits_one_entry (disk : Disk) (path name : String) :
    ((∃ said after, setMetric disk path name = .ok (said, after)) ↔
      ∃ m v, Asks disk path name m v ∧ IsSettable v ∧
        ∀ w, SetsMetric m v w → w.text?.isSome = true) ∧
    (∀ said after, setMetric disk path name = .ok (said, after) →
      ∃ m v w, Asks disk path name m v ∧ SetsMetric m v w ∧ said = metricSet m ∧
        disk.write path (Bytes.ofText w.text) = .ok after ∧ after.readText path = .ok w.text ∧
        (Value.read? w.text = some w →
          setMetric after path name = .ok (said, after) ∧
          ∀ other, setMetric after path other = setMetric disk path other)) ∧
    ∀ failure, setMetric disk path name = .error failure →
      (∀ cause, failure ≠ .writing cause) ∧
      ∀ {σ : Type} (carry : Ollama.Carrier σ) (world : World σ), world.disk = disk →
        perform carry { config := path, command := .setMetric name } world =
          (.ofFailure "" (some failure), world) := by
  refine ⟨⟨?_, ?_⟩, ?_, ?_⟩
  · rintro ⟨said, after, done⟩
    obtain ⟨m, v, w, asks, sets, writable, -⟩ := setMetric_eq_ok_iff_asks.1 done
    refine ⟨m, v, asks, (isSettable_iff m).2 ⟨w, sets⟩, fun u sets' => ?_⟩
    rwa [sets.unique sets'] at writable
  · rintro ⟨m, v, asks, settable, writable⟩
    obtain ⟨w, sets⟩ := (isSettable_iff m).1 settable
    obtain ⟨text, isText, -⟩ := asks.value
    obtain ⟨after, written⟩ := exists_write isText (Bytes.ofText w.text)
    exact ⟨_, after, setMetric_eq_ok_iff_asks.2
      ⟨m, v, w, asks, sets, writable w sets, written, rfl⟩⟩
  · intro said after done
    obtain ⟨m, v, w, asks, sets, -, written, rfl⟩ := setMetric_eq_ok_iff_asks.1 done
    refine ⟨m, v, w, asks, sets, rfl, written, Disk.readText_write written, fun readBack => ?_⟩
    have again := setMetric_again asks sets written readBack
    exact ⟨(again name).trans done, again⟩
  · intro failure failed
    refine ⟨fun cause same => setMetric_ne_writing cause (same ▸ failed), ?_⟩
    rintro σ carry world rfl
    simp only [perform, failed]

/-- A file whose section on storage is empty, and one in which it is a text. -/
def emptied : String := "storage:\nsearch:\n  top_k: 7\n"

def occupied : String := "storage: disk\n"

/-- The value of the first file, when the section is what is given. -/
def sectioned (storage : Value) : Value :=
  .mapping [(.string "storage", storage),
    (.string "search", .mapping [(.string "top_k", .integer 7)])]

/-- The section with a metric. -/
def dotted : Value := .mapping [(.string "metric", .string "dot")]

theorem setsMetric_emptied : SetsMetric .dot (sectioned .null) (sectioned dotted) := by
  have isStorage : storageFields? (some .null) = some [] := rfl
  exact .mapping isStorage (.added [] nofun) (.replaced [] _ .null nofun)

theorem setMetric_edits_one_entry_sample :
    (∃ said after, setMetric (configured emptied) "config.yaml" "DOT" = .ok (said, after) ∧
      after.readText "config.yaml" = .ok (sectioned dotted).text ∧
      setMetric after "config.yaml" "DOT" = .ok (said, after) ∧
      ∀ other, setMetric after "config.yaml" other =
        setMetric (configured emptied) "config.yaml" other) ∧
    ∀ {σ : Type} (carry : Ollama.Carrier σ) (world : World σ),
      world.disk = configured occupied →
        (perform carry { config := "config.yaml", command := .setMetric "dot" } world).2 =
          world := by
  constructor
  · obtain ⟨exactly, changes, -⟩ :=
      setMetric_edits_one_entry (configured emptied) "config.yaml" "DOT"
    have asks : Asks (configured emptied) "config.yaml" "DOT" .dot (sectioned .null) :=
      ⟨by decide +kernel, emptied.toList, by decide +kernel, by decide +kernel⟩
    have writable (w : Value) (sets : SetsMetric .dot (sectioned .null) w) :
        w.text?.isSome = true := by
      rw [sets.unique setsMetric_emptied]
      decide +kernel
    obtain ⟨said, after, done⟩ := exactly.2
      ⟨.dot, _, asks, (isSettable_iff .dot).2 ⟨_, setsMetric_emptied⟩, writable⟩
    obtain ⟨m, v, w, asks', sets, -, -, text, again⟩ := changes said after done
    obtain ⟨rfl, rfl⟩ := asks.unique asks'
    rw [sets.unique setsMetric_emptied] at text again
    exact ⟨said, after, done, text, again (by decide +kernel)⟩
  · rintro σ carry world same
    obtain ⟨-, -, fails⟩ := setMetric_edits_one_entry (configured occupied) "config.yaml" "dot"
    have noMapping : (setMetric (configured occupied) "config.yaml" "dot").isOk = false := by
      decide +kernel
    cases failed : setMetric (configured occupied) "config.yaml" "dot" with
    | ok result =>
        rw [failed] at noMapping
        cases noMapping
    | error failure => rw [(fails failure failed).2 carry world same]

end CommandLine

end Retrieval
