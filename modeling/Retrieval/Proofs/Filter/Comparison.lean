/-
# Retrieval.Proofs.Filter.Comparison -- numeric conditions and exact values

A number of metadata stands for a rational (`Json.exactValue?`), and the four numeric
conditions compare the 64-bit floats that are nearest to the two rationals.  Two rationals
are merged when they differ and one float is nearest to both.  Merged numbers count as
equal, so the strict conditions miss them and the others let them pass; otherwise the
conditions follow the exact order (`Filter.compares_up_to_merging`).

No number of magnitude below `2 ^ 53` is merged with another.  Right behind that it
happens (`Filter.merged_numbers_compare_equal`).
-/
import Retrieval.Filter.Basic
import Retrieval.Proofs.Binary.Comparison
import Retrieval.Proofs.Decimal.Reading

namespace Retrieval

set_option autoImplicit false

/-- The rationals differ, and one 64-bit float is nearest to both. -/
def Merged (q r : ℚ) : Prop := q ≠ r ∧ ∃ x : Binary64, x.IsNearest q ∧ x.IsNearest r

namespace Json

variable {q r : ℚ}

/-- The rational that a number stands for; infinities and `nan` stand for none. -/
def Number.exactValue? : Number → Option ℚ
  | integer n _ _ => some n
  | float x => x.exactValue?

theorem Number.fits {n : Int} (lower : least ≤ n) (upper : n < limit) :
    Format.double.Fits |(n : ℚ)| := by
  have low : (least : ℚ) ≤ n := by exact_mod_cast lower
  have high : (n : ℚ) < limit := by exact_mod_cast upper
  refine Decimal.fits_of_le (abs_le.2 ⟨?_, ?_⟩)
  · norm_num at low ⊢
    linarith
  · norm_num at high ⊢
    linarith

/-- **A number is taken as the float nearest to what it stands for.** -/
theorem Number.toDouble_isNearest {n : Number} (exact : n.exactValue? = some q) :
    n.toDouble.IsNearest q := by
  cases n with
  | integer n lower upper =>
      cases exact
      exact Binary.ofInt_isNearest (by decide) (by decide) (fits lower upper)
  | float x => exact Binary.isNearest_of_exactValue? exact

/-- A number of magnitude below `2 ^ 53` is taken as it is. -/
theorem Number.exactValue?_toDouble {n : Number} (exact : n.exactValue? = some q)
    (small : |q| < 2 ^ 53) : n.toDouble.exactValue? = some q := by
  cases n with
  | integer n lower upper =>
      cases exact
      refine Binary.exactValue?_ofInt (by decide) (by decide) ?_ (fits lower upper)
      rw [← Int.cast_abs, Int.abs_eq_natAbs, Int.cast_natCast] at small
      rw [Format.double_hidden]
      exact_mod_cast small
  | float x => exact exact

/-- The rational that a numeric value stands for. -/
def exactValue? (v : Json) : Option ℚ := v.number?.bind Number.exactValue?

/-- If the value is a number, it stands for a rational, as in every JSON text. -/
def Sound (v : Json) : Prop := ∀ n, v.number? = some n → ∃ q, n.exactValue? = some q

/-- Numbers of magnitude below `2 ^ 53` are not merged. -/
theorem not_merged {v w : Json} (exactV : v.exactValue? = some q) (exactW : w.exactValue? = some r)
    (smallQ : |q| < 2 ^ 53) (smallR : |r| < 2 ^ 53) : ¬ Merged q r := by
  rintro ⟨different, same⟩
  obtain ⟨m, -, exactM⟩ := Option.bind_eq_some_iff.1 exactV
  obtain ⟨n, -, exactN⟩ := Option.bind_eq_some_iff.1 exactW
  have equal := (Binary.IsNearest.equal_iff_exists (Number.toDouble_isNearest exactM)
    (Number.toDouble_isNearest exactN)).2 same
  exact different (Binary.exactValue?_unique (Number.exactValue?_toDouble exactM smallQ)
    (Number.exactValue?_toDouble exactN smallR) equal)

end Json

namespace Filter

variable {metadata : Metadata} {field : String} {target : Json}

/-- A field holds a number that stands in a relation to the target, as rationals. -/
def Relates (relation : ℚ → ℚ → Prop) (metadata : Metadata) (field : String) (target : Json) :
    Prop :=
  ∃ found q r, Entries.get? field metadata = some found ∧ found.exactValue? = some q ∧
    target.exactValue? = some r ∧ relation q r

/-- **A comparison of floats is a comparison of what they are nearest to.** -/
theorem compares_iff (sound : ∀ found, Entries.get? field metadata = some found → found.Sound)
    (soundTarget : target.Sound) {compare : Binary64 → Binary64 → Bool}
    {relation : ℚ → ℚ → Prop}
    (agree : ∀ x y q r, x.IsNearest q → y.IsNearest r → (compare x y = true ↔ relation q r)) :
    compares compare metadata field target = true ↔ Relates relation metadata field target := by
  unfold compares Relates
  cases present : Entries.get? field metadata with
  | none => simp
  | some found =>
      cases isNumber : found.number? with
      | none => simp [Json.double?, Json.exactValue?, isNumber]
      | some m =>
          cases isTarget : target.number? with
          | none => simp [Json.double?, Json.exactValue?, isNumber, isTarget]
          | some n =>
              obtain ⟨q, exactM⟩ := sound found present m isNumber
              obtain ⟨r, exactN⟩ := soundTarget n isTarget
              have rounded := agree _ _ q r (Json.Number.toDouble_isNearest exactM)
                (Json.Number.toDouble_isNearest exactN)
              simpa [Json.double?, Json.exactValue?, isNumber, isTarget, exactM, exactN]
                using rounded

/-- Strict order of the nearest floats, in exact terms. -/
theorem less_iff_merged {x y : Binary64} {q r : ℚ} (left : x.IsNearest q) (right : y.IsNearest r) :
    Binary.less x y = true ↔ q < r ∧ ¬ Merged q r := by
  rw [left.less_iff right, left.equal_iff_exists right, Merged]
  constructor
  · rintro ⟨less, apart⟩
    exact ⟨less, fun merged => apart merged.2⟩
  · rintro ⟨less, apart⟩
    exact ⟨less, fun common => apart ⟨less.ne, common⟩⟩

/-- Order of the nearest floats, in exact terms. -/
theorem lessOrEqual_iff_merged {x y : Binary64} {q r : ℚ} (left : x.IsNearest q)
    (right : y.IsNearest r) : Binary.lessOrEqual x y = true ↔ q ≤ r ∨ Merged q r := by
  rw [left.lessOrEqual_iff right, left.equal_iff_exists right, Merged]
  constructor
  · rintro (le | common)
    · exact .inl le
    · by_cases same : q = r
      · exact .inl same.le
      · exact .inr ⟨same, common⟩
  · rintro (le | ⟨-, common⟩)
    · exact .inl le
    · exact .inr common

theorem merged_comm {q r : ℚ} : Merged q r ↔ Merged r q := by
  simp only [Merged, ne_comm, and_comm]

/-- **Numeric conditions follow the exact order but for merged numbers.**  Each of the four
holds exactly when the field is there with a number, the target is a number, and the two
are in that relation as rationals, where numbers that have one nearest float count as
equal.  Numbers of magnitude below `2 ^ 53` have different ones. -/
theorem compares_up_to_merging (metadata : Metadata) (field : String) (target : Json)
    (sound : ∀ found, Entries.get? field metadata = some found → found.Sound)
    (soundTarget : target.Sound) :
    (accepts metadata (gt field target) = true ↔
      Relates (fun q r => r < q ∧ ¬ Merged q r) metadata field target) ∧
    (accepts metadata (gte field target) = true ↔
      Relates (fun q r => r ≤ q ∨ Merged q r) metadata field target) ∧
    (accepts metadata (lt field target) = true ↔
      Relates (fun q r => q < r ∧ ¬ Merged q r) metadata field target) ∧
    (accepts metadata (lte field target) = true ↔
      Relates (fun q r => q ≤ r ∨ Merged q r) metadata field target) ∧
    ∀ found q r, Entries.get? field metadata = some found → found.exactValue? = some q →
      target.exactValue? = some r → |q| < 2 ^ 53 → |r| < 2 ^ 53 → ¬ Merged q r := by
  refine ⟨?_, ?_, ?_, ?_, fun _ _ _ _ exactQ exactR => Json.not_merged exactQ exactR⟩
  · refine compares_iff sound soundTarget fun x y q r left right => ?_
    rw [less_iff_merged right left, merged_comm]
  · refine compares_iff sound soundTarget fun x y q r left right => ?_
    rw [lessOrEqual_iff_merged right left, merged_comm]
  · exact compares_iff sound soundTarget fun _ _ _ _ => less_iff_merged
  · exact compares_iff sound soundTarget fun _ _ _ _ => lessOrEqual_iff_merged

/-- Metadata with the number `2 ^ 53 + 1`. -/
def longNumber : Metadata :=
  [("serial", .number (.integer 9007199254740993 (by decide) (by decide)))]

/-- The number `2 ^ 53`. -/
def roundNumber : Json := .number (.integer 9007199254740992 (by decide) (by decide))

theorem sound_roundNumber : roundNumber.Sound := by
  intro n isNumber
  cases isNumber
  exact ⟨_, rfl⟩

theorem sound_longNumber (found : Json)
    (present : Entries.get? "serial" longNumber = some found) : found.Sound := by
  have same : found = .number (.integer 9007199254740993 (by decide) (by decide)) :=
    (Option.some.inj present).symm
  subst same
  intro n isNumber
  cases isNumber
  exact ⟨_, rfl⟩

theorem compares_up_to_merging_sample :
    (∀ found, Entries.get? "serial" longNumber = some found → found.Sound) ∧
      roundNumber.Sound ∧ accepts longNumber (gte "serial" roundNumber) = true := by
  refine ⟨sound_longNumber, sound_roundNumber, ?_⟩
  obtain ⟨-, atLeast, -⟩ := compares_up_to_merging longNumber "serial" roundNumber
    sound_longNumber sound_roundNumber
  exact atLeast.2 ⟨_, _, _, rfl, rfl, rfl, .inl (by norm_num)⟩

/-- The number `2 ^ 53 + 1` is greater than `2 ^ 53`, and the filter says that it is not. -/
theorem merged_numbers_compare_equal :
    Relates (fun q r => r < q) longNumber "serial" roundNumber ∧
      accepts longNumber (gt "serial" roundNumber) = false := by
  refine ⟨⟨_, _, _, rfl, rfl, rfl, by norm_num⟩, ?_⟩
  decide +kernel

end Filter

end Retrieval
