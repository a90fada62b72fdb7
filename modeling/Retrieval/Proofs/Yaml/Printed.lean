/-
# Retrieval.Proofs.Yaml.Printed -- texts that show a value as the printer writes it

A printed scalar that is no string is written in one way only, whatever the text was that
its value came from: `0x10` comes back as `16`, and `~` as `null`.  So a tree that is made
of a printed text has no standard tags and each scalar in that one spelling
(`Tree.isPrinted`), and everything that is read from it is told by the value: the text of a
scalar (`Tree.text?_of_isPrinted`), whether there is a number (`Tree.word?_iff_isInteger`),
and that no mapping is left out (`Tree.fields?_of_isPrinted`).
-/
import Retrieval.Proofs.Yaml.Fields
import Retrieval.Yaml.Value.Printer

namespace Retrieval

set_option autoImplicit false

namespace Yaml

/-! ## Numbers in scalars -/

namespace Scalar

variable {text : String} {cs : List Char} {n : UInt64} {z : Int}

theorem word?_eq_some : word? cs = some n ↔ natural? cs = some n.toNat := by
  unfold word?
  rw [Option.bind_eq_some_iff]
  constructor
  · rintro ⟨k, found, same⟩
    split at same
    · rename_i small
      cases same
      rw [found, UInt64.toNat_ofNat_of_lt' small]
    · cases same
  · intro found
    exact ⟨n.toNat, found, by rw [if_pos n.toNat_lt, UInt64.ofNat_toNat]⟩

/-- A natural number of 64 bits is an integer that a value can hold. -/
theorem ofInteger?_word (found : word? cs = some n) :
    (integer? cs).bind ofInteger? = some (.integer n.toNat) := by
  have small := n.toNat_lt
  have fit : fits 64 n.toNat = true := by
    simp only [fits, Nat.reduceSub, Nat.reduceShiftLeft, Bool.and_eq_true, decide_eq_true_eq]
    omega
  rw [integer?, word?_eq_some.1 found]
  simp [ofInteger?, fit]

/-- No word for nothing or for a truth value is a number. -/
theorem word?_words : ∀ word ∈ ["", "null", "Null", "NULL", "~", "true", "True", "TRUE", "false",
    "False", "FALSE"], word? word.toList = none := by decide

theorem word?_of_word (found : word? text.toList = some n) :
    text.isEmpty = false ∧ isNull text = false ∧ bool? text = none := by
  have other := mt (word?_words text) (by rw [found]; exact Option.some_ne_none n)
  simp only [List.mem_cons, List.not_mem_nil, or_false, not_or] at other
  simp [isNull, bool?, other]

theorem meaning_of_word? (found : word? text.toList = some n) :
    meaning text = .integer n.toNat := by
  obtain ⟨notEmpty, noNull, noBool⟩ := word?_of_word found
  simp [meaning, notEmpty, noNull, noBool, ofInteger?_word found]

theorem ofInteger?_of_meaning (means : meaning text = .integer z) :
    (integer? text.toList).bind ofInteger? = some (.integer z) := by
  unfold meaning at means
  dsimp only at means
  split at means
  · cases means
  · split at means
    · cases means
    · rename_i found
      rw [found, means]
    · split at means <;> cases means

theorem integer?_of_ofInteger? (stands : (integer? cs).bind ofInteger? = some (.integer z)) :
    integer? cs = some z := by
  obtain ⟨k, found, same⟩ := Option.bind_eq_some_iff.1 stands
  unfold ofInteger? at same
  split_ifs at same <;> cases same
  exact found

/-- The text of a natural number is read as that number. -/
theorem word?_of_integerText (found : integer? (integerText n.toNat) = some (n.toNat : Int)) :
    word? (integerText n.toNat) = some n := by
  rw [word?_eq_some]
  cases natural : natural? (integerText n.toNat) with
  | some k =>
      rw [integer?, natural] at found
      have same : (k : Int) = n.toNat := Option.some.inj found
      rw [Int.ofNat_inj.1 same]
  | none =>
      -- then it was read behind a minus sign, so it is zero
      rw [integer?, natural] at found
      obtain ⟨z, negative, same⟩ := Option.map_eq_some_iff.1 found
      obtain ⟨k, _, isInteger⟩ := Option.bind_eq_some_iff.1 negative
      cases isInteger
      have zero : n.toNat = 0 := by omega
      rw [zero] at natural
      exact absurd natural (by decide)

end Scalar

/-! ## The spelling of values -/

namespace Value

/-- The text of a scalar as it is printed, tags aside. -/
def spelling? (v : Value) : Option String :=
  match v.bare with
  | string text => some text
  | u => (u.scalarText? 0 false).map String.ofList

/-- Whether a value is an integer, tags aside. -/
def isInteger (v : Value) : Bool :=
  match v.bare with
  | integer _ => true
  | _ => false

theorem isInteger_iff {v : Value} : v.isInteger = true ↔ ∃ z, v.bare = integer z := by
  unfold isInteger
  split
  · rename_i z same
    exact iff_of_true rfl ⟨z, same⟩
  · rename_i other
    exact iff_of_false (by simp) fun ⟨z, same⟩ => other z same

@[simp] theorem spelling?_withTag (tag : Option Bytes) (v : Value) :
    (withTag tag v).spelling? = v.spelling? := by simp only [spelling?, bare_withTag]

@[simp] theorem isInteger_withTag (tag : Option Bytes) (v : Value) :
    (withTag tag v).isInteger = v.isInteger := by simp only [isInteger, bare_withTag]

end Value

/-- Whether a tag is no more than the tag of a value: none, or one with a name. -/
def Tag.isOwn (tag : Option Bytes) : Bool := tag.all fun t => (Tag.name? t).isSome

theorem Tag.ne_of_isOwn {tag : Option Bytes} (own : Tag.isOwn tag = true) (kind : String) :
    tag ≠ some (Tag.ofKind kind) := by
  rintro rfl
  have letter : (Tag.ofKind kind).head? = some 0x74 := rfl
  simp [Tag.isOwn, Tag.name?, letter, Tag.bang] at own

namespace Tree

mutual

/-- Whether a tree is one of a printed text: scalars have no tag but that of their value, and
stand in its spelling. -/
def isPrinted : Tree → Bool
  | .reference name => nomatch name
  | .scalar p style text =>
      Tag.isOwn p.tag &&
        (Value.ofScalar? p.tag style text).any fun v => v.spelling? = some text
  | .sequence _ items => arePrintedItems items
  | .mapping _ fields => arePrintedFields fields

/-- Whether items are those of a printed text. -/
def arePrintedItems : List Tree → Bool
  | [] => true
  | item :: rest => isPrinted item && arePrintedItems rest

/-- Whether fields are those of a printed text. -/
def arePrintedFields : List (Tree × Tree) → Bool
  | [] => true
  | (key, value) :: rest => isPrinted key && isPrinted value && arePrintedFields rest

end

end Tree

/-! ## Scalars of printed texts -/

namespace Tree

open Value (ofTree? ofScalar? ofMeaning? withTag ofTree?_scalar exists_scalar)

variable {tag : Option Bytes} {style : Style} {text : String} {t old : Tree} {u v : Value}
  {n : UInt64} {z : Int} {p : Properties Empty} {o : Option UInt64}

/-- Where no standard tag stands, only what is plain can be something else than its text. -/
theorem ofScalar?_of_isOwn (own : Tag.isOwn tag = true) :
    ofScalar? tag style text =
      if style = .plain then ofMeaning? text (Scalar.meaning text) else some (.string text) := by
  have named : (tag.all fun t => t.head? = some Tag.bang) = true := by
    cases tag with
    | none => rfl
    | some t =>
        simp only [Tag.isOwn, Option.all_some, Tag.name?] at own
        split at own
        · rename_i bang
          simpa using bang
        · cases own
  simp [ofScalar?, Tag.ne_of_isOwn own, named]

/-- What is no string stands plain. -/
theorem eq_plain_of_isOwn (own : Tag.isOwn tag = true) (stands : ofScalar? tag style text = some u)
    (other : u ≠ .string text) : style = .plain := by
  by_contra quoted
  rw [ofScalar?_of_isOwn own, if_neg quoted] at stands
  exact other (Option.some.inj stands).symm

theorem text?_of_isPrinted (printed : t.isPrinted = true) (value : ofTree? t = some v) :
    t.text? = v.spelling? := by
  cases t with
  | reference name => nomatch name
  | scalar p style text =>
      obtain ⟨u, stands, rfl⟩ := ofTree?_scalar.1 value
      rw [isPrinted, stands, Bool.and_eq_true] at printed
      have spelled : u.spelling? = some text := by simpa using printed.2
      rw [Value.spelling?_withTag, spelled]
      rfl
  | sequence p items =>
      rw [ofTree?, Option.map_eq_some_iff] at value
      obtain ⟨items, _, rfl⟩ := value
      rw [Value.spelling?_withTag]
      rfl
  | mapping p fields =>
      rw [ofTree?, Option.map_eq_some_iff] at value
      obtain ⟨fields, _, rfl⟩ := value
      rw [Value.spelling?_withTag]
      rfl

/-- No mapping of a printed text is left out. -/
theorem fields?_of_isPrinted (printed : t.isPrinted = true) (value : ofTree? t = some v)
    (scalar : v.isScalar = true) : t.fields? = none := by
  obtain ⟨p, style, text, rfl, stands, _⟩ := exists_scalar value scalar
  unfold fields?
  split
  · contradiction
  · rename_i same
    cases same
    rw [isPrinted, Bool.and_eq_true] at printed
    rw [ofScalar?_of_isOwn printed.1] at printed
    exact absurd printed.2 (by decide +kernel)
  · rfl

/-! ### Numbers -/

theorem word?_eq_some (found : t.word? = some n) :
    ∃ p style text, t = .scalar p style text ∧ Scalar.word? text.toList = some n ∧
      (style = .plain ∨ p.tag = some (Tag.ofKind "int")) := by
  unfold word? at found
  split at found
  · exact ⟨_, _, _, rfl, found, .inl rfl⟩
  · split at found
    · rename_i tagged
      exact ⟨_, _, _, rfl, found, .inr tagged⟩
    · cases found
  · cases found

theorem isInteger_of_word? (printed : t.isPrinted = true) (value : ofTree? t = some v)
    (found : t.word? = some n) : v.isInteger = true := by
  obtain ⟨p, style, text, rfl, number, kind⟩ := word?_eq_some found
  rw [isPrinted, Bool.and_eq_true] at printed
  obtain ⟨u, stands, rfl⟩ := ofTree?_scalar.1 value
  have plain := kind.resolve_right (Tag.ne_of_isOwn printed.1 "int")
  rw [ofScalar?_of_isOwn printed.1, if_pos plain, Scalar.meaning_of_word? number] at stands
  cases stands
  rw [Value.isInteger_withTag]
  rfl

/-- A scalar that stands for an integer is the text of one. -/
theorem ofScalar?_integer (stands : ofScalar? tag style text = some (.integer z)) :
    (Scalar.integer? text.toList).bind Scalar.ofInteger? = some (.integer z) := by
  rcases Value.ofScalar?_cases stands with ⟨b, _, same⟩ | ⟨m, found, same⟩ | ⟨x, _, same⟩ |
    ⟨_, same⟩ | same | same
  · cases same
  · rw [found]
    cases m <;> cases same
    rfl
  · cases same
  · cases same
  · cases means : Scalar.meaning text <;> rw [means] at same <;> cases same
    exact Scalar.ofInteger?_of_meaning means
  · cases same

/-- **A number is still there** in a printed text exactly when its value is an integer. -/
theorem word?_iff_isInteger (found : old.word? = some n) (before : ofTree? old = some v)
    (value : ofTree? t = some v) (printed : t.isPrinted = true) :
    t.word? = some n ↔ v.isInteger = true := by
  refine ⟨isInteger_of_word? printed value, fun isInteger => ?_⟩
  obtain ⟨z, integer⟩ := Value.isInteger_iff.1 isInteger
  have scalar : v.isScalar = true := by rw [Value.isScalar, integer]
  obtain ⟨p, style, text, rfl, stands, _⟩ := exists_scalar before scalar
  obtain ⟨_, _, _, same, number, _⟩ := word?_eq_some found
  cases same
  rw [integer] at stands
  have same : z = n.toNat := by
    have both := ofScalar?_integer stands
    rw [Scalar.ofInteger?_word number] at both
    cases both
    rfl
  subst same
  obtain ⟨p', style', text', rfl, stands', _⟩ := exists_scalar value scalar
  rw [integer] at stands'
  rw [isPrinted, stands', Bool.and_eq_true] at printed
  have spelled : text'.toList = integerText n.toNat := by
    have same : String.ofList (integerText n.toNat) = text' := by
      simpa [Value.spelling?, Value.bare, Value.scalarText?] using printed.2
    rw [← same, String.toList_ofList]
  have plain := eq_plain_of_isOwn printed.1 stands' (by simp)
  have read := Scalar.integer?_of_ofInteger? (ofScalar?_integer stands')
  rw [plain]
  show Scalar.word? text'.toList = some n
  rw [spelled] at read ⊢
  exact Scalar.word?_of_integerText read

/-! ### Numbers that may be missing -/

theorem optionalWord?_eq_some_some (found : t.optionalWord? = some (some n)) :
    t.word? = some n := by
  unfold optionalWord? at found
  split at found
  · split_ifs at found
    · cases found
    · cases found
    · obtain ⟨k, number, same⟩ := Option.map_eq_some_iff.1 found
      cases same
      exact number
  · obtain ⟨k, number, same⟩ := Option.map_eq_some_iff.1 found
    cases same
    exact number

/-- Where nothing is written for a number, the value is nothing. -/
theorem eq_null_of_optionalWord? (found : t.optionalWord? = some none)
    (value : ofTree? t = some v) : v = .null := by
  unfold optionalWord? at found
  split at found
  · obtain ⟨u, stands, rfl⟩ := ofTree?_scalar.1 value
    split_ifs at found with tagged nothing absent
    · unfold ofScalar? at stands
      rw [tagged, if_neg (by decide), if_neg (by decide), if_neg (by decide), if_pos rfl,
        if_pos nothing] at stands
      cases stands
      rw [tagged]
      decide
    · simp only [Bool.and_eq_true, Option.isNone_iff_eq_none] at absent
      rw [absent.1, ofScalar?_of_isOwn rfl, if_pos rfl, Scalar.meaning, if_pos absent.2] at stands
      cases stands
      rw [absent.1]
      rfl
    · obtain ⟨k, _, same⟩ := Option.map_eq_some_iff.1 found
      cases same
  · obtain ⟨k, _, same⟩ := Option.map_eq_some_iff.1 found
    cases same

theorem ne_null_of_word? (found : t.word? = some n) (value : ofTree? t = some v) : v ≠ .null := by
  rintro rfl
  obtain ⟨p, style, text, isText, number, _⟩ := word?_eq_some found
  obtain ⟨_, _, _, same, stands, _⟩ := exists_scalar value rfl
  rw [isText] at same
  cases same
  rcases Value.ofScalar?_cases stands with ⟨b, _, same⟩ | ⟨m, found, same⟩ | ⟨x, _, same⟩ |
    ⟨nothing, _⟩ | same | same
  · cases same
  · rw [Scalar.ofInteger?_word number] at found
    cases found
    cases same
  · cases same
  · rw [(Scalar.word?_of_word number).2.1] at nothing
    cases nothing
  · rw [Scalar.meaning_of_word? number] at same
    cases same
  · cases same

/-- In a printed text nothing is written as `null`. -/
theorem optionalWord?_of_null (value : ofTree? t = some .null) (printed : t.isPrinted = true) :
    t.optionalWord? = some none := by
  obtain ⟨p, style, text, rfl, stands, tagged⟩ := exists_scalar value rfl
  rw [isPrinted, stands, Bool.and_eq_true] at printed
  have spelled : "null" = text := by
    simpa [Value.spelling?, Value.bare, Value.scalarText?] using printed.2
  have untagged : p.tag = none := by
    cases own : p.tag with
    | none => rfl
    | some tag =>
        rw [own] at tagged printed
        obtain ⟨name, named⟩ := Option.isSome_iff_exists.1 printed.1
        rw [withTag, Value.ownName?, Option.bind_some, named] at tagged
        cases tagged
  have plain := eq_plain_of_isOwn printed.1 stands (by simp [Value.bare])
  rw [plain, ← spelled]
  simp [optionalWord?, untagged, Scalar.isNull]

/-- In a printed text a number is also read where it may be missing. -/
theorem optionalWord?_of_word? (found : t.word? = some n) (printed : t.isPrinted = true) :
    t.optionalWord? = some (some n) := by
  obtain ⟨p, style, text, rfl, number, kind⟩ := word?_eq_some found
  obtain ⟨notEmpty, noNull, _⟩ := Scalar.word?_of_word number
  rw [isPrinted, Bool.and_eq_true] at printed
  cases kind.resolve_right (Tag.ne_of_isOwn printed.1 "int")
  simp [optionalWord?, Tag.ne_of_isOwn printed.1 "null", notEmpty, noNull, found]

/-- **A number that may be missing is still there,** or still missing, in a printed text
exactly when its value is nothing or an integer. -/
theorem optionalWord?_iff (found : old.optionalWord? = some o) (before : ofTree? old = some v)
    (value : ofTree? t = some v) (printed : t.isPrinted = true) :
    t.optionalWord? = some o ↔ v = .null ∨ v.isInteger = true := by
  cases o with
  | none =>
      have isNull := eq_null_of_optionalWord? found before
      subst isNull
      exact iff_of_true (optionalWord?_of_null value printed) (.inl rfl)
  | some n =>
      have number := optionalWord?_eq_some_some found
      constructor
      · intro there
        exact .inr (isInteger_of_word? printed value (optionalWord?_eq_some_some there))
      · rintro (isNull | isInteger)
        · exact absurd isNull (ne_null_of_word? number before)
        · have there := (word?_iff_isInteger number before value printed).2 isInteger
          exact optionalWord?_of_word? there printed

/-! ## Parts of printed texts -/

theorem isPrinted_of_mem {fields : List (Tree × Tree)} {field : Tree × Tree}
    (printed : arePrintedFields fields = true) (member : field ∈ fields) :
    field.1.isPrinted = true ∧ field.2.isPrinted = true := by
  induction fields with
  | nil => cases member
  | cons first fields ih =>
      obtain ⟨key, value⟩ := first
      rw [arePrintedFields, Bool.and_eq_true, Bool.and_eq_true] at printed
      rcases List.mem_cons.1 member with rfl | member
      · exact printed.1
      · exact ih printed.2 member

/-- What is under a name in a printed text is printed. -/
theorem isPrinted_of_mem_under {fields : List (Tree × Tree)} {name : String}
    (printed : isPrinted (.mapping p fields) = true) (member : t ∈ under name fields) :
    t.isPrinted = true := by
  obtain ⟨field, there, rfl⟩ := List.mem_map.1 member
  exact (isPrinted_of_mem printed (List.mem_filter.1 there).1).2

/-- The first of what is under a name in a printed text is printed. -/
theorem isPrinted_of_head {fields : List (Tree × Tree)} {name : String}
    (printed : isPrinted (.mapping p fields) = true) :
    ∀ t ∈ (under name fields).head?, t.isPrinted = true :=
  fun _ first => isPrinted_of_mem_under printed (List.mem_of_mem_head? first)

section Columns

variable {α : Type} {default r : α} {read? : Tree → Option α} {P : Value → Prop}
  {slot slot' : Option Tree} {x : Option Value}

/-- What is read of a slot is there in a printed text exactly when the value is such that it
is, whatever `e` a slot with nothing in it means. -/
theorem elim_iff {e : Option α} (before : Value.SlotReads slot x)
    (value : Value.SlotReads slot' x) (printed : ∀ t ∈ slot', t.isPrinted = true)
    (alike : ∀ a b v, read? a = some r → ofTree? a = some v → ofTree? b = some v →
      b.isPrinted = true → (read? b = some r ↔ P v))
    (found : slot.elim e read? = some r) :
    slot'.elim e read? = some r ↔ ∀ v ∈ x, P v := by
  cases x with
  | none =>
      rw [before.none_right] at found
      rw [value.none_right]
      exact iff_of_true found (by simp)
  | some v =>
      obtain ⟨a, rfl, valueBefore⟩ := before.exists_left
      obtain ⟨b, rfl, valueNow⟩ := value.exists_left
      refine (alike a b v found valueBefore valueNow (printed b rfl)).trans ?_
      simp

theorem column?_eq_elim : column? default read? slot = slot.elim (some default) read? := by
  cases slot <;> rfl

theorem bind_eq_elim : slot.bind read? = slot.elim none read? := by cases slot <;> rfl

/-- **A column is read alike in a printed text** exactly when its value is such that it is. -/
theorem column?_iff (before : Value.SlotReads slot x) (value : Value.SlotReads slot' x)
    (printed : ∀ t ∈ slot', t.isPrinted = true)
    (alike : ∀ a b v, read? a = some r → ofTree? a = some v → ofTree? b = some v →
      b.isPrinted = true → (read? b = some r ↔ P v))
    (found : column? default read? slot = some r) :
    column? default read? slot' = some r ↔ ∀ v ∈ x, P v := by
  rw [column?_eq_elim] at found ⊢
  exact elim_iff before value printed alike found

/-- A text that has to be there is read alike in a printed text exactly when the value has
that spelling. -/
theorem bind_text?_iff (before : Value.SlotReads slot x) (value : Value.SlotReads slot' x)
    (printed : ∀ t ∈ slot', t.isPrinted = true) (found : slot.bind text? = some text) :
    slot'.bind text? = some text ↔ ∀ v ∈ x, v.spelling? = some text := by
  rw [bind_eq_elim] at found ⊢
  refine elim_iff before value printed (fun a b v _ _ value printed => ?_) found
  rw [text?_of_isPrinted printed value]

end Columns

end Tree

end Yaml

end Retrieval
