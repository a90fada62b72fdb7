/-
# Retrieval.Proofs.Filter.Codec -- the values that are filters

Writing and reading a filter are inverse to each other (`Filter.ofJson?_eq_some_iff`): a
filter is read back from its value, and a value that is read as a filter is what that
filter is written as.  So each filter has one form, and `Filter.Form` lists the forms,
with no word on how they are read: an object with one field, whose name is the kind of
the condition and whose value has the shape of its argument, down to the innermost
filter.  A value is a filter exactly when it has such a form
(`Filter.reads_exactly_forms`).
-/
import Retrieval.Filter.Codec

namespace Retrieval

set_option autoImplicit false

namespace Filter

/-! ## Reading back what was written -/

theorem ofJson?_toJson (filter : Filter) : ofJson? filter.toJson = some filter := by
  induction filter with
  | and left right ihl ihr => simp [toJson, tagged, ofJson?, ihl, ihr]
  | or left right ihl ihr => simp [toJson, tagged, ofJson?, ihl, ihr]
  | not inner ih => simp [toJson, tagged, ofJson?, ih]
  | _ => simp [toJson, tagged, ofJson?, condition?, Json.items?, Json.text?]

/-! ## Writing back what was read -/

/-- A condition on one field is written with the kind and the operand it was read from. -/
theorem toJson_of_condition? {kind field : String} {operand : Json} {filter : Filter}
    (found : condition? kind field operand = some filter) :
    filter.toJson = tagged kind (.array [.string field, operand]) := by
  unfold condition? at found
  split at found
  case h_7 =>
    obtain ⟨values, items, rfl⟩ := Option.map_eq_some_iff.1 found
    cases operand with
    | array => cases items; rfl
    | _ => cases items
  case h_8 =>
    obtain ⟨needle, text, rfl⟩ := Option.map_eq_some_iff.1 found
    cases operand with
    | string => cases text; rfl
    | _ => cases text
  all_goals cases found
  all_goals rfl

theorem toJson_of_ofJson? {v : Json} {filter : Filter} (found : ofJson? v = some filter) :
    filter.toJson = v := by
  fun_induction ofJson? v generalizing filter with
  | case1 field =>
      cases found
      rfl
  | case2 inner ih =>
      obtain ⟨read, isRead, rfl⟩ := Option.map_eq_some_iff.1 found
      rw [toJson, ih isRead, tagged]
  | case3 left right ihl ihr =>
      obtain ⟨first, isFirst, rest⟩ := Option.bind_eq_some_iff.1 found
      obtain ⟨second, isSecond, made⟩ := Option.bind_eq_some_iff.1 rest
      cases made
      rw [toJson, ihl isFirst, ihr isSecond, tagged]
  | case4 left right ihl ihr =>
      obtain ⟨first, isFirst, rest⟩ := Option.bind_eq_some_iff.1 found
      obtain ⟨second, isSecond, made⟩ := Option.bind_eq_some_iff.1 rest
      cases made
      rw [toJson, ihl isFirst, ihr isSecond, tagged]
  | case5 kind field operand => exact toJson_of_condition? found
  | case6 => cases found

/-- **Reading and writing filters are inverse.** -/
theorem ofJson?_eq_some_iff (v : Json) (filter : Filter) :
    ofJson? v = some filter ↔ filter.toJson = v := by
  constructor
  · exact toJson_of_ofJson?
  · rintro rfl
    exact ofJson?_toJson filter

/-! ## The forms of filters -/

/-- The form of a filter: an object with one field. -/
inductive Form : Json → Prop where
  | comparison {kind : String} (known : kind ∈ ["eq", "ne", "gt", "gte", "lt", "lte"])
      (field : String) (operand : Json) : Form (tagged kind (.array [.string field, operand]))
  | membership (field : String) (values : List Json) :
      Form (tagged "in" (.array [.string field, .array values]))
  | containment (field needle : String) :
      Form (tagged "contains" (.array [.string field, .string needle]))
  | presence (field : String) : Form (tagged "exists" (.string field))
  | connective {kind : String} (known : kind ∈ ["and", "or"]) {left right : Json} :
      Form left → Form right → Form (tagged kind (.array [left, right]))
  | negation {inner : Json} : Form inner → Form (tagged "not" inner)

/-- A filter is written in a form. -/
theorem form_toJson (filter : Filter) : Form filter.toJson := by
  induction filter with
  | oneOf field values => exact .membership field values
  | contains field needle => exact .containment field needle
  | present field => exact .presence field
  | and left right ihl ihr => exact .connective (by decide) ihl ihr
  | or left right ihl ihr => exact .connective (by decide) ihl ihr
  | not inner ih => exact .negation ih
  | _ => exact .comparison (by decide) _ _

/-- Every form is that of a filter. -/
theorem exists_toJson_of_form {v : Json} (form : Form v) :
    ∃ filter : Filter, filter.toJson = v := by
  induction form with
  | comparison known field operand =>
      simp only [List.mem_cons, List.not_mem_nil, or_false] at known
      rcases known with rfl | rfl | rfl | rfl | rfl | rfl
      · exact ⟨eq field operand, rfl⟩
      · exact ⟨ne field operand, rfl⟩
      · exact ⟨gt field operand, rfl⟩
      · exact ⟨gte field operand, rfl⟩
      · exact ⟨lt field operand, rfl⟩
      · exact ⟨lte field operand, rfl⟩
  | membership field values => exact ⟨oneOf field values, rfl⟩
  | containment field needle => exact ⟨contains field needle, rfl⟩
  | presence field => exact ⟨present field, rfl⟩
  | connective known _ _ ihl ihr =>
      obtain ⟨left, rfl⟩ := ihl
      obtain ⟨right, rfl⟩ := ihr
      simp only [List.mem_cons, List.not_mem_nil, or_false] at known
      rcases known with rfl | rfl
      · exact ⟨and left right, rfl⟩
      · exact ⟨or left right, rfl⟩
  | negation _ ih =>
      obtain ⟨inner, rfl⟩ := ih
      exact ⟨not inner, rfl⟩

/-- **The codec is exact.**  A value is read as a filter exactly when it is what the filter
is written as, and the values that are read as some filter are the forms. -/
theorem reads_exactly_forms :
    (∀ v (filter : Filter), ofJson? v = some filter ↔ filter.toJson = v) ∧
    ∀ v, (∃ filter, ofJson? v = some filter) ↔ Form v := by
  refine ⟨ofJson?_eq_some_iff, fun v => ?_⟩
  simp only [ofJson?_eq_some_iff]
  constructor
  · rintro ⟨filter, rfl⟩
    exact form_toJson filter
  · exact exists_toJson_of_form

end Filter

end Retrieval
