/-
# Retrieval.Proofs.Yaml.Fields -- the fields of a mapping, in its tree and in its value

A record takes its columns out of a mapping by the texts of the keys
(`Tree.columns?_mapping`).  The value of the mapping has the same fields, where a key is
no text any more but a string, with or without a tag, and anything else if its text stands
for something else.  A name that stands for nothing else (`Scalar.isAmbiguous`) is found in
the one exactly where it is found in the other (`FieldsRead.forall₂_under`), so whether there
are columns can be told from the value.

`Value.setField` looks at keys without a tag only.  It changes nothing under other names
(`under_setField_of_ne`), and what it puts under its own name is the only thing there unless
the name is there with a tag (`under_setField`).
-/
import Mathlib.Data.List.Forall2
import Mathlib.Data.List.Nodup
import Retrieval.Proofs.Yaml.Value

namespace Retrieval

set_option autoImplicit false

namespace Yaml

/-! ## Columns as look-ups -/

namespace Tree

variable {names : List String} {name : String}

/-- The trees under a name. -/
def under (name : String) (fields : List (Tree × Tree)) : List Tree :=
  (fields.filter fun field => field.1.text? = some name).map Prod.snd

theorem under_cons (name : String) (field : Tree × Tree) (fields : List (Tree × Tree)) :
    under name (field :: fields) =
      if field.1.text? = some name then field.2 :: under name fields else under name fields := by
  unfold under
  by_cases same : field.1.text? = some name <;> simp [same]

/-- What is under a name after what was there. -/
def gathered (there : String → Option Tree) (name : String) (fields : List (Tree × Tree)) :
    List Tree :=
  (there name).toList ++ under name fields

variable {there : String → Option Tree} {key value : Tree} {fields : List (Tree × Tree)}
  {text : String} {slots : List (Option Tree)}

theorem gathered_nil (there : String → Option Tree) (name : String) :
    (gathered there name []).length ≤ 1 ∧ (gathered there name []).head? = there name := by
  unfold gathered
  cases there name <;> simp [under]

theorem gathered_cons_of_ne (isText : key.text? = some text) (other : name ≠ text) :
    gathered there name ((key, value) :: fields) = gathered there name fields := by
  rw [gathered, under_cons, if_neg, gathered]
  simpa [isText, eq_comm] using other

/-- A field counts the same when its tree is there already. -/
theorem gathered_cons (isText : key.text? = some text) (free : there text = none) (name : String) :
    gathered there name ((key, value) :: fields) =
      gathered (Function.update there text (some value)) name fields := by
  by_cases same : name = text
  · subst same
    rw [gathered, under_cons, if_pos isText, free, gathered, Function.update_self]
    rfl
  · rw [gathered_cons_of_ne isText same, gathered, gathered, Function.update_of_ne same]

/-- **Fields can be spread over columns** when every key is a scalar and no name has more
than one tree, counting what was there; then each column has the tree of its name. -/
theorem spread?_eq_some (distinct : names.Nodup) :
    spread? names fields (names.map there) = some slots ↔
      (∀ field ∈ fields, field.1.text?.isSome = true) ∧
      (∀ name ∈ names, (gathered there name fields).length ≤ 1) ∧
      names.map (fun name => (gathered there name fields).head?) = slots := by
  induction fields generalizing there with
  | nil => simp [spread?, gathered_nil]
  | cons field fields ih =>
      obtain ⟨key, value⟩ := field
      unfold spread?
      cases isText : key.text? with
      | none => simp [isText]
      | some text =>
          simp only [Option.bind_eq_bind, Option.bind_some, List.forall_mem_cons, isText,
            Option.isSome_some, true_and]
          by_cases known : text ∈ names
          · obtain ⟨i, place⟩ := Option.isSome_iff_exists.1 (List.isSome_idxOf?.2 known)
            have first : names.idxOf text = i := by
              rw [List.idxOf_eq_getD_idxOf?, place]
              rfl
            have column : (names.map there)[i]? = some (there text) := by
              rw [List.getElem?_map, ← first, List.getElem?_idxOf known]
              rfl
            rw [place]
            dsimp only
            rw [column]
            cases free : there text with
            | none =>
                have set := distinct.map_update there text (some value)
                rw [if_pos known, first] at set
                dsimp only
                rw [← set, ih]
                simp only [gathered_cons isText free]
            | some old =>
                refine iff_of_false (by simp) ?_
                rintro ⟨_, few, _⟩
                have two := few text known
                rw [gathered, free, under_cons, if_pos isText] at two
                simp at two
          · have unchanged (name : String) (member : name ∈ names) :
                gathered there name ((key, value) :: fields) = gathered there name fields :=
              gathered_cons_of_ne isText fun same => known (same ▸ member)
            have heads :
                names.map (fun name => (gathered there name ((key, value) :: fields)).head?) =
                  names.map fun name => (gathered there name fields).head? :=
              List.map_congr_left fun name member => by rw [unchanged name member]
            rw [List.idxOf?_eq_none_iff.2 known, heads]
            dsimp only
            rw [ih]
            refine and_congr_right fun _ => and_congr_left fun _ =>
              forall₂_congr fun name member => ?_
            rw [unchanged name member]

/-- **The columns of a mapping** are the trees under the names, where there is at most one
for each, and every key is a scalar. -/
theorem columns?_mapping (distinct : names.Nodup) {p : Properties Empty} :
    Tree.columns? names (.mapping p fields) = some slots ↔
      (∀ field ∈ fields, field.1.text?.isSome = true) ∧
      (∀ name ∈ names, (under name fields).length ≤ 1) ∧
      names.map (fun name => (under name fields).head?) = slots := by
  have start : List.replicate names.length none = names.map fun _ => (none : Option Tree) := by
    rw [List.map_const']
  unfold columns?
  rw [fields?, Option.bind_some, start, spread?_eq_some distinct]
  rfl

/-- Columns are those of a mapping, or of what is not written, where all are free. -/
theorem columns?_cases {t : Tree} (found : t.columns? names = some slots) :
    (∃ p trees, t = .mapping p trees) ∨
      ∃ p, t = .scalar p .plain "" ∧ slots = List.replicate names.length none := by
  obtain ⟨fields, isFields, spread⟩ := Option.bind_eq_some_iff.1 found
  unfold fields? at isFields
  split at isFields
  · exact .inl ⟨_, _, rfl⟩
  · cases isFields
    exact .inr ⟨_, rfl, (Option.some.inj spread).symm⟩
  · cases isFields

end Tree

namespace Value

/-! ## Fields -/

/-- Fields and the values they stand for. -/
def FieldsRead (trees : List (Tree × Tree)) (fields : List (Value × Value)) : Prop :=
  List.Forall₂ (fun t v => ofTree? t.1 = some v.1 ∧ ofTree? t.2 = some v.2) trees fields

section Fields

variable {trees : List (Tree × Tree)} {fields : List (Value × Value)} {name other : String}
  {v x : Value} {t : Tree}

theorem ofFields?_eq_some (value : ofFields? trees = some fields) : FieldsRead trees fields := by
  induction trees generalizing fields with
  | nil =>
      cases value
      exact .nil
  | cons field trees ih =>
      obtain ⟨key, tree⟩ := field
      obtain ⟨k, isKey, value⟩ := Option.bind_eq_some_iff.1 value
      obtain ⟨x, isValue, value⟩ := Option.bind_eq_some_iff.1 value
      obtain ⟨rest, others, value⟩ := Option.bind_eq_some_iff.1 value
      cases value
      exact .cons ⟨isKey, isValue⟩ (ih others)

theorem fieldsRead_of_mapping {p : Properties Empty} (value : ofTree? (.mapping p trees) = some v) :
    v.bare = .mapping v.fields ∧ v.isTagged = (ownName? p.tag).isSome ∧
      FieldsRead trees v.fields := by
  rw [ofTree?, Option.map_eq_some_iff] at value
  obtain ⟨others, value, rfl⟩ := value
  have isMapping : (withTag p.tag (mapping others)).bare = .mapping others := bare_withTag _ _
  rw [Value.fields, isMapping]
  exact ⟨rfl, isTagged_withTag _ rfl, ofFields?_eq_some value⟩

/-- A mapping, tags aside, is the value of a mapping. -/
theorem exists_fieldsRead (value : ofTree? t = some v) (isMapping : v.bare = .mapping fields) :
    ∃ p trees, t = .mapping p trees ∧ FieldsRead trees fields := by
  cases t with
  | reference name => nomatch name
  | scalar p style text =>
      have scalar := (isSome_text?_iff value).1 rfl
      rw [isScalar, isMapping] at scalar
      cases scalar
  | sequence p items =>
      rw [ofTree?, Option.map_eq_some_iff] at value
      obtain ⟨items, _, rfl⟩ := value
      rw [bare_withTag] at isMapping
      cases isMapping
  | mapping p trees =>
      obtain ⟨same, _, read⟩ := fieldsRead_of_mapping value
      rw [isMapping] at same
      cases same
      exact ⟨p, trees, rfl, read⟩

/-- Items and the values they stand for. -/
def ItemsRead (trees : List Tree) (items : List Value) : Prop :=
  List.Forall₂ (fun t v => ofTree? t = some v) trees items

theorem ofItems?_eq_some {trees : List Tree} {items : List Value}
    (value : ofItems? trees = some items) : ItemsRead trees items := by
  induction trees generalizing items with
  | nil =>
      cases value
      exact .nil
  | cons t trees ih =>
      obtain ⟨x, isValue, value⟩ := Option.bind_eq_some_iff.1 value
      obtain ⟨rest, others, value⟩ := Option.bind_eq_some_iff.1 value
      cases value
      exact .cons isValue (ih others)

theorem itemsRead_of_sequence {p : Properties Empty} {trees : List Tree}
    (value : ofTree? (.sequence p trees) = some v) :
    ∃ items, v.bare = .sequence items ∧ v.isTagged = (ownName? p.tag).isSome ∧
      ItemsRead trees items := by
  rw [ofTree?, Option.map_eq_some_iff] at value
  obtain ⟨items, value, rfl⟩ := value
  exact ⟨items, bare_withTag _ _, isTagged_withTag _ rfl, ofItems?_eq_some value⟩

/-- A sequence, tags aside, is the value of a sequence. -/
theorem exists_itemsRead {items : List Value} (value : ofTree? t = some v)
    (isSequence : v.bare = .sequence items) : ∃ p trees, t = .sequence p trees := by
  cases t with
  | reference name => nomatch name
  | scalar p style text =>
      have scalar := (isSome_text?_iff value).1 rfl
      rw [isScalar, isSequence] at scalar
      cases scalar
  | sequence p trees => exact ⟨p, trees, rfl⟩
  | mapping p trees =>
      rw [(fieldsRead_of_mapping value).1] at isSequence
      cases isSequence

/-- The values under a name. -/
def under (name : String) (fields : List (Value × Value)) : List Value :=
  (fields.filter fun field => field.1.name? = some name).map Prod.snd

theorem under_cons (name : String) (field : Value × Value) (fields : List (Value × Value)) :
    under name (field :: fields) =
      if field.1.name? = some name then field.2 :: under name fields else under name fields := by
  unfold under
  by_cases same : field.1.name? = some name <;> simp [same]

/-- **What is under a name in the trees stands for what is under it in the values.** -/
theorem FieldsRead.forall₂_under (read : FieldsRead trees fields)
    (plain : Scalar.isAmbiguous name = false) :
    List.Forall₂ (fun t v => ofTree? t = some v) (Tree.under name trees) (under name fields) := by
  induction read with
  | nil => exact .nil
  | @cons tree field trees fields first more ih =>
      rw [Tree.under_cons, under_cons]
      by_cases named : field.1.name? = some name
      · rw [if_pos named, if_pos ((text?_eq_iff plain first.1).2 named)]
        exact .cons first.2 ih
      · rw [if_neg named, if_neg fun text => named ((text?_eq_iff plain first.1).1 text)]
        exact ih

theorem FieldsRead.areScalars (read : FieldsRead trees fields) :
    (∀ tree ∈ trees, tree.1.text?.isSome = true) ↔ ∀ field ∈ fields, field.1.isScalar = true := by
  induction read with
  | nil => simp
  | cons first more ih =>
      rw [List.forall_mem_cons, List.forall_mem_cons, ih, isSome_text?_iff first.1]

/-- A tree that may be missing, and the value that is missing where it is. -/
def SlotReads (slot : Option Tree) (x : Option Value) : Prop := slot.map ofTree? = x.map some

theorem SlotReads.none_right {slot : Option Tree} (read : SlotReads slot none) : slot = none :=
  Option.map_eq_none_iff.1 read

theorem SlotReads.exists_left {slot : Option Tree} {v : Value} (read : SlotReads slot (some v)) :
    ∃ t, slot = some t ∧ ofTree? t = some v := Option.map_eq_some_iff.1 read

/-- The first tree under a name, and the first value. -/
theorem FieldsRead.head (read : FieldsRead trees fields) (plain : Scalar.isAmbiguous name = false) :
    SlotReads (Tree.under name trees).head? (under name fields).head? := by
  have both := read.forall₂_under plain
  unfold SlotReads
  generalize Tree.under name trees = ts at both
  generalize Value.under name fields = vs at both
  cases both with
  | nil => rfl
  | cons first more => simp [first]

/-- Columns can be taken out of fields: every key is a scalar, and no name occurs twice. -/
def AreClear (names : List String) (fields : List (Value × Value)) : Prop :=
  (∀ field ∈ fields, field.1.isScalar = true) ∧ ∀ name ∈ names, (under name fields).length ≤ 1

/-- **Whether there are columns is told by the values,** and they are the trees of the names. -/
theorem FieldsRead.columns?_eq_some (read : FieldsRead trees fields) {names : List String}
    (distinct : names.Nodup) (plain : ∀ name ∈ names, Scalar.isAmbiguous name = false)
    {p : Properties Empty} {slots : List (Option Tree)} :
    Tree.columns? names (.mapping p trees) = some slots ↔
      AreClear names fields ∧ names.map (fun name => (Tree.under name trees).head?) = slots := by
  rw [Tree.columns?_mapping distinct, read.areScalars, AreClear, and_assoc]
  refine and_congr_right fun _ => and_congr_left fun _ => forall₂_congr fun name member => ?_
  rw [(read.forall₂_under (plain name member)).length_eq]

/-! ## Setting a field -/

theorem agree_string_iff : agree (string name) v = true ↔ v = string name := by
  cases v <;> simp [agree, eq_comm]

theorem under_setField_of_ne (different : other ≠ name) :
    under other (setField name x fields) = under other fields := by
  induction fields with
  | nil => simp [setField, under, name?, bare, different.symm]
  | cons field fields ih =>
      obtain ⟨k, old⟩ := field
      unfold setField
      split
      · rename_i same
        rw [agree_string_iff] at same
        subst same
        simp [under_cons, name?, bare, different.symm]
      · rw [under_cons, under_cons, ih]

theorem areScalars_setField :
    (∀ field ∈ setField name x fields, field.1.isScalar = true) ↔
      ∀ field ∈ fields, field.1.isScalar = true := by
  induction fields with
  | nil => simp [setField, isScalar, bare]
  | cons field fields ih =>
      obtain ⟨k, old⟩ := field
      unfold setField
      split
      · simp
      · rw [List.forall_mem_cons, List.forall_mem_cons, ih]

theorem mem_under_setField : x ∈ under name (setField name x fields) := by
  induction fields with
  | nil => simp [setField, under, name?, bare]
  | cons field fields ih =>
      obtain ⟨k, old⟩ := field
      unfold setField
      split
      · rename_i same
        rw [agree_string_iff] at same
        subst same
        simp [under_cons, name?, bare]
      · rw [under_cons]
        split
        · exact List.mem_cons_of_mem _ ih
        · exact ih

/-- No key has a name behind a tag. -/
def IsPlain (name : String) (fields : List (Value × Value)) : Prop :=
  ∀ field ∈ fields, field.1.name? = some name → field.1 = string name

instance (name : String) (fields : List (Value × Value)) : Decidable (IsPlain name fields) :=
  inferInstanceAs (Decidable (∀ field ∈ fields, field.1.name? = some name → field.1 = string name))

/-- **A field that is set is the only one of its name** exactly when the name was there at
most once, and then without a tag. -/
theorem length_under_setField (few : (under name fields).length ≤ 1) :
    (under name (setField name x fields)).length ≤ 1 ↔ IsPlain name fields := by
  induction fields with
  | nil => simp [setField, under, IsPlain, name?, bare]
  | cons field fields ih =>
      obtain ⟨k, old⟩ := field
      rw [IsPlain, List.forall_mem_cons]
      rw [under_cons] at few
      unfold setField
      split
      · rename_i same
        rw [agree_string_iff] at same
        subst same
        have named : (string name).name? = some name := rfl
        rw [if_pos named, List.length_cons] at few
        have none : under name fields = [] := List.length_eq_zero_iff.1 (by omega)
        rw [under_cons, if_pos named, none]
        refine iff_of_true (Nat.le_refl 1) ⟨fun _ => rfl, fun field member named => ?_⟩
        have there : field.2 ∈ under name fields :=
          List.mem_map_of_mem (List.mem_filter.2 ⟨member, by simpa using named⟩)
        rw [none] at there
        cases there
      · rename_i other
        rw [agree_string_iff] at other
        rw [under_cons]
        by_cases named : k.name? = some name
        · rw [if_pos named]
          have there : x ∈ under name (setField name x fields) := mem_under_setField
          have more := List.length_pos_of_mem there
          refine iff_of_false (by rw [List.length_cons]; omega) ?_
          exact fun plain => other (plain.1 named)
        · rw [if_neg named] at few ⊢
          rw [ih few]
          exact ⟨fun plain => ⟨fun this => absurd this named, plain⟩, fun plain => plain.2⟩

theorem under_setField (few : (under name fields).length ≤ 1) (plain : IsPlain name fields) :
    under name (setField name x fields) = [x] := by
  have one := (length_under_setField (x := x) few).2 plain
  have there : x ∈ under name (setField name x fields) := mem_under_setField
  obtain ⟨y, same⟩ := List.length_eq_one_iff.1 (Nat.le_antisymm one (List.length_pos_of_mem there))
  rw [same] at there ⊢
  rw [List.mem_singleton.1 there]

/-- **Columns can still be taken out after a field was set** exactly when its name was not
there behind a tag. -/
theorem areClear_setField {names : List String} (clear : AreClear names fields)
    (member : name ∈ names) :
    AreClear names (setField name x fields) ↔ IsPlain name fields := by
  rw [AreClear, areScalars_setField]
  constructor
  · rintro ⟨_, few⟩
    exact (length_under_setField (clear.2 name member)).1 (few name member)
  · intro plain
    refine ⟨clear.1, fun other among => ?_⟩
    by_cases same : other = name
    · subst same
      exact (length_under_setField (clear.2 other among)).2 plain
    · rw [under_setField_of_ne same]
      exact clear.2 other among

end Fields

end Value

end Yaml

end Retrieval
