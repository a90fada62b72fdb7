/-
# Retrieval.Proofs.Decimal.Legible -- every finite float is legible

The decimal that is printed for a finite 32-bit float, in the layout that it is printed
in, is read back as that float, its sign included (`Binary.legible_of_isFinite`).
-/
import Retrieval.Proofs.Decimal.Layout
import Retrieval.Proofs.Decimal.Reading

namespace Retrieval

set_option autoImplicit false

open Json

/-- A text that means a decimal is read as what the reader makes of that decimal. -/
theorem Decimal.Means.single {negative : Bool} {text : List Char} {d : Decimal}
    (means : Decimal.Means negative text d) {y : Binary64}
    (scaled : d.scaled negative = some y) :
    (Source.read (Binary.signText negative ++ text)).bind Source.single? =
      some (y.convert .single) := by
  obtain ⟨l, written, same, rfl, float, rfl⟩ := means
  obtain ⟨n, scanned, literal⟩ := Literal.scan_text written
  have ran := Reader.run_numeral scanned [] .value rfl
  have read : Source.read l.text = some (.number l) := by
    show (Reader.run Reader.start l.text).bind Reader.finish = _
    rw [Reader.start, ran, Option.bind_some]
    simp only [Reader.finish, literal]
    rfl
  rw [← same, read, Option.bind_some, Source.single?, Source.number?, Literal.number?_eq float,
    scaled]
  rfl

namespace Binary

/-- **What is printed for a finite float is read back as that float.** -/
theorem legible_of_isFinite {x : Binary32} (finite : x.isFinite = true) : x.Legible := by
  cases x with
  | nan => cases finite
  | number negative code bounded =>
      have below : code < Format.single.infinity := by simpa [isFinite] using finite
      have has : HasCode (.number negative code bounded : Binary32) negative code :=
        ⟨below, bounded, rfl⟩
      rw [Legible, text, if_neg (Nat.ne_of_lt below)]
      cases code with
      | zero =>
          obtain ⟨y, scaled, same⟩ := Decimal.scaled_zero negative
          have means : Decimal.Means negative "0.0".toList ⟨0, -1⟩ := by
            refine ⟨⟨negative, [0], [0], none⟩, ⟨?_, ?_, .inl rfl, ?_⟩, ?_, rfl,
              .inl (List.cons_ne_nil _ _), rfl⟩
            · exact Layout.areDigits_replicate_zero 1
            · exact Layout.areDigits_replicate_zero 1
            · intro _ _ none
              cases none
            · cases negative <;> rfl
          rw [if_pos rfl, means.single scaled, same.unique has]
      | succ b =>
          have chosen := Format.shortest_chosen .single b
          have few := Format.shortest_short .single b
          rw [if_neg (Nat.succ_ne_zero b)]
          have small := few
          rw [Format.single_hidden] at small
          rcases Layout.text_means (L := .single) negative rfl (by decide) chosen.significand_pos
            (lt_trans small (by decide)) with means | ⟨m, whole, short, means⟩
          · obtain ⟨y, scaled, same⟩ := Decimal.scaled_chosen negative chosen below few
            rw [means.single scaled, same.unique has]
          · have short : m < 10 ^ 13 := short
            obtain ⟨y, scaled, same⟩ :=
              Decimal.scaled_whole negative chosen below whole (by omega)
            rw [means.single scaled, same.unique has]

end Binary

end Retrieval
