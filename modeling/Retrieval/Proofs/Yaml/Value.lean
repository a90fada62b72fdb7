/-
# Retrieval.Proofs.Yaml.Value -- what can be told of a value

Two values can be compared part by part (`Value.same_iff`), so a value that was read can be
checked against another.

A tag does not hide what is behind it (`Value.bare`): the text of a string is the text of
the scalar that it was read from, and a text that stands for nothing else is read as a
string wherever it is a scalar (`Value.text?_eq_iff`).
-/
import Mathlib.Tactic.SplitIfs
import Retrieval.Proofs.Yaml.Tree

namespace Retrieval

set_option autoImplicit false

namespace Yaml

namespace Value

/-! ## Comparing values -/

mutual

/-- Whether two values are the same. -/
def same : Value → Value → Bool
  | null, null => true
  | bool a, bool b => a = b
  | integer a, integer b => a = b
  | float x, float y => x = y
  | string a, string b => a = b
  | sequence a, sequence b => sameItems a b
  | mapping a, mapping b => sameFields a b
  | tagged s a, tagged t b => s = t && same a b
  | _, _ => false

/-- Whether items are the same. -/
def sameItems : List Value → List Value → Bool
  | [], [] => true
  | a :: as, b :: bs => same a b && sameItems as bs
  | _, _ => false

/-- Whether fields are the same, in one order. -/
def sameFields : List (Value × Value) → List (Value × Value) → Bool
  | [], [] => true
  | (j, a) :: as, (k, b) :: bs => same j k && same a b && sameFields as bs
  | _, _ => false

end

mutual

theorem same_iff : ∀ a b : Value, same a b = true ↔ a = b
  | null, b | bool _, b | integer _, b | float _, b | string _, b => by
      cases b <;> simp [same]
  | sequence items, b => by
      cases b <;> simp [same, sameItems_iff items]
  | mapping fields, b => by
      cases b <;> simp [same, sameFields_iff fields]
  | tagged tag a, b => by
      cases b <;> simp [same, same_iff a]

theorem sameItems_iff : ∀ as bs : List Value, sameItems as bs = true ↔ as = bs
  | [], bs => by cases bs <;> simp [sameItems]
  | a :: as, bs => by cases bs <;> simp [sameItems, same_iff a, sameItems_iff as]

theorem sameFields_iff : ∀ as bs : List (Value × Value), sameFields as bs = true ↔ as = bs
  | [], bs => by cases bs <;> simp [sameFields]
  | (j, a) :: as, bs => by
      cases bs <;> simp [sameFields, same_iff j, same_iff a, sameFields_iff as, Prod.ext_iff]

end

instance : DecidableEq Value := fun a b => decidable_of_iff _ (same_iff a b)

end Value

/-! ## Values behind tags -/

namespace Scalar

/-- A text that stands for itself stands for nothing else. -/
theorem meaning_of_not_isAmbiguous {text : String} (plain : isAmbiguous text = false) :
    meaning text = .text ∧ isNull text = false ∧ bool? text = none ∧
      (integer? text.toList).bind ofInteger? = none ∧ float? text.toList = none := by
  unfold isAmbiguous at plain
  cases means : meaning text with
  | text =>
      rw [means] at plain
      refine ⟨rfl, ?_⟩
      unfold meaning at means
      dsimp only at means plain
      rw [plain] at means
      split at means
      · cases means
      · rename_i something
        split at means
        · cases means
        · rename_i found
          subst means
          obtain ⟨n, _, stands⟩ := Option.bind_eq_some_iff.1 found
          unfold ofInteger? at stands
          split_ifs at stands <;> cases stands
        · rename_i noBool noInteger
          split at means
          · cases means
          · rename_i noFloat
            exact ⟨by simp_all, noBool, noInteger, noFloat⟩
  | _ => simp [means] at plain

end Scalar

namespace Value

/-- A value without the tags before it. -/
def bare : Value → Value
  | tagged _ v => bare v
  | v => v

/-- The fields of a mapping, tags aside; anything else has none. -/
def fields (v : Value) : List (Value × Value) :=
  match v.bare with
  | mapping fields => fields
  | _ => []

/-- The text of a string, tags aside. -/
def name? (v : Value) : Option String :=
  match v.bare with
  | string text => some text
  | _ => none

/-- Whether a value is no collection. -/
def isScalar (v : Value) : Bool :=
  match v.bare with
  | sequence _ | mapping _ => false
  | _ => true

@[simp] theorem bare_withTag (tag : Option Bytes) (v : Value) : (withTag tag v).bare = v.bare := by
  unfold withTag
  cases ownName? tag <;> rfl

@[simp] theorem name?_withTag (tag : Option Bytes) (v : Value) :
    (withTag tag v).name? = v.name? := by simp only [name?, bare_withTag]

@[simp] theorem isScalar_withTag (tag : Option Bytes) (v : Value) :
    (withTag tag v).isScalar = v.isScalar := by simp only [isScalar, bare_withTag]

/-- Whether a value stands behind a tag. -/
def isTagged : Value → Bool
  | tagged .. => true
  | _ => false

theorem isTagged_withTag (tag : Option Bytes) {v : Value} (untagged : v.isTagged = false) :
    (withTag tag v).isTagged = (ownName? tag).isSome := by
  unfold withTag
  cases ownName? tag with
  | none => exact untagged
  | some name => rfl

/-! ### Scalars -/

section Scalars

variable {tag : Option Bytes} {style : Style} {text name : String} {u v : Value} {t : Tree}
  {p : Properties Empty}

/-- What a scalar can be: what a standard tag says, what a plain scalar stands for, or its
text. -/
theorem ofScalar?_cases (value : ofScalar? tag style text = some u) :
    (∃ b, Scalar.bool? text = some b ∧ u = .bool b) ∨
    (∃ m, (Scalar.integer? text.toList).bind Scalar.ofInteger? = some m ∧
      ofMeaning? text m = some u) ∨
    (∃ x, Scalar.float? text.toList = some x ∧ u = .float x) ∨
    (Scalar.isNull text = true ∧ u = .null) ∨
    ofMeaning? text (Scalar.meaning text) = some u ∨ u = .string text := by
  unfold ofScalar? at value
  split_ifs at value with _ _ _ _ nothing
  · obtain ⟨b, found, rfl⟩ := Option.map_eq_some_iff.1 value
    exact .inl ⟨b, found, rfl⟩
  · exact .inr (.inl (Option.bind_eq_some_iff.1 value))
  · obtain ⟨x, found, rfl⟩ := Option.map_eq_some_iff.1 value
    exact .inr (.inr (.inl ⟨x, found, rfl⟩))
  · exact .inr (.inr (.inr (.inl ⟨nothing, (Option.some.inj value).symm⟩)))
  · exact .inr (.inr (.inr (.inr (.inl value))))
  · exact .inr (.inr (.inr (.inr (.inr (Option.some.inj value).symm))))

/-- A scalar is no collection, has no tag left, and if it is a string then its own text. -/
theorem ofScalar?_eq_some (value : ofScalar? tag style text = some u) :
    u.bare = u ∧ u.isScalar = true ∧ ∀ s, u.name? = some s → s = text := by
  have meant (m : Scalar.Meaning) (value : ofMeaning? text m = some u) :
      u.bare = u ∧ u.isScalar = true ∧ ∀ s, u.name? = some s → s = text := by
    cases m <;> cases value <;> simp [bare, isScalar, name?]
  rcases ofScalar?_cases value with
    ⟨b, _, rfl⟩ | ⟨m, _, value⟩ | ⟨x, _, rfl⟩ | ⟨_, rfl⟩ | value | rfl
  · simp [bare, isScalar, name?]
  · exact meant m value
  · simp [bare, isScalar, name?]
  · simp [bare, isScalar, name?]
  · exact meant _ value
  · simp [bare, isScalar, name?]

/-- A text that stands for nothing else is a string wherever it is a value. -/
theorem ofScalar?_of_not_isAmbiguous (plain : Scalar.isAmbiguous text = false)
    (value : ofScalar? tag style text = some u) : u = .string text := by
  obtain ⟨means, noNull, noBool, noInteger, noFloat⟩ := Scalar.meaning_of_not_isAmbiguous plain
  rcases ofScalar?_cases value with ⟨b, found, _⟩ | ⟨m, found, _⟩ | ⟨x, found, _⟩ | ⟨nothing, _⟩ |
    value | same
  · rw [noBool] at found
    cases found
  · rw [noInteger] at found
    cases found
  · rw [noFloat] at found
    cases found
  · rw [noNull] at nothing
    cases nothing
  · rw [means] at value
    exact (Option.some.inj value).symm
  · exact same

theorem ofTree?_scalar :
    ofTree? (.scalar p style text) = some v ↔
      ∃ u, ofScalar? p.tag style text = some u ∧ withTag p.tag u = v := by
  rw [ofTree?, Option.map_eq_some_iff]

theorem isSome_text?_iff (value : ofTree? t = some v) :
    t.text?.isSome = true ↔ v.isScalar = true := by
  cases t with
  | reference name => nomatch name
  | scalar p style text =>
      obtain ⟨u, stands, rfl⟩ := ofTree?_scalar.1 value
      simp [Tree.text?, (ofScalar?_eq_some stands).2.1]
  | sequence p items =>
      rw [ofTree?, Option.map_eq_some_iff] at value
      obtain ⟨items, _, rfl⟩ := value
      simp [Tree.text?, isScalar, bare]
  | mapping p fields =>
      rw [ofTree?, Option.map_eq_some_iff] at value
      obtain ⟨fields, _, rfl⟩ := value
      simp [Tree.text?, isScalar, bare]

/-- A scalar value is that of a scalar, behind the tag of the scalar. -/
theorem exists_scalar (value : ofTree? t = some v) (scalar : v.isScalar = true) :
    ∃ p style text, t = .scalar p style text ∧ ofScalar? p.tag style text = some v.bare ∧
      withTag p.tag v.bare = v := by
  obtain ⟨text, isText⟩ := Option.isSome_iff_exists.1 ((isSome_text?_iff value).2 scalar)
  cases t with
  | scalar p style text =>
      obtain ⟨u, stands, rfl⟩ := ofTree?_scalar.1 value
      have same := (ofScalar?_eq_some stands).1
      exact ⟨p, style, text, rfl, by rw [bare_withTag, same, stands], by rw [bare_withTag, same]⟩
  | _ => cases isText

/-- **A name that stands for itself** is the text of a tree when it is the name of its value. -/
theorem text?_eq_iff (plain : Scalar.isAmbiguous name = false) (value : ofTree? t = some v) :
    t.text? = some name ↔ v.name? = some name := by
  cases t with
  | reference name => nomatch name
  | scalar p style text =>
      obtain ⟨u, stands, rfl⟩ := ofTree?_scalar.1 value
      rw [Tree.text?, name?_withTag, Option.some.injEq]
      constructor
      · rintro rfl
        rw [ofScalar?_of_not_isAmbiguous plain stands]
        rfl
      · intro named
        exact ((ofScalar?_eq_some stands).2.2 name named).symm
  | sequence p items =>
      rw [ofTree?, Option.map_eq_some_iff] at value
      obtain ⟨items, _, rfl⟩ := value
      simp [Tree.text?, name?, bare]
  | mapping p fields =>
      rw [ofTree?, Option.map_eq_some_iff] at value
      obtain ⟨fields, _, rfl⟩ := value
      simp [Tree.text?, name?, bare]

end Scalars

/-! ### Texts -/

/-- The value of a text is that of its tree. -/
theorem exists_tree_of_read? {text : List Char} {v : Value} (found : Value.read? text = some v) :
    ∃ t, Tree.read? text = some t ∧ ofTree? t = some v := by
  obtain ⟨s, isSource, found⟩ := Option.bind_eq_some_iff.1 found
  obtain ⟨t, grown, found⟩ := Option.bind_eq_some_iff.1 found
  obtain ⟨u, value, found⟩ := Option.bind_eq_some_iff.1 found
  split at found
  · cases found
    exact ⟨t, Option.bind_eq_some_iff.2 ⟨s, isSource, grown⟩, value⟩
  · cases found

end Value

end Yaml

end Retrieval
