/-
# Retrieval.Proofs.Collection.Header -- a header is read back

The text of every header is read back as that header (`Header.read?_text`), so a
collection passes the check of the header it was made with and of no other
(`Collection.readHeader_bytes`, `Collection.checkHeader_eq_ok_iff`).
-/
import Retrieval.Collection.Basic
import Retrieval.Proofs.Disk.Folder
import Retrieval.Proofs.Json.Numeral

namespace Retrieval

set_option autoImplicit false

open Json (Source Numeral Reader CodeUnit)

namespace Header

/-- The units of the names of the fields. -/
def dimensionUnits : List CodeUnit :=
  ['d', 'i', 'm', 'e', 'n', 's', 'i', 'o', 'n'].map CodeUnit.plain

def metricUnits : List CodeUnit := ['m', 'e', 't', 'r', 'i', 'c'].map CodeUnit.plain

/-- The units of the name of a metric. -/
def nameUnits : Metric → List CodeUnit
  | .cosine => ['c', 'o', 's', 'i', 'n', 'e'].map CodeUnit.plain
  | .euclidean => ['e', 'u', 'c', 'l', 'i', 'd', 'e', 'a', 'n'].map CodeUnit.plain
  | .dot => ['d', 'o', 't'].map CodeUnit.plain

/-- What is read from the text of a header. -/
theorem read_text (h : Header) :
    ∃ literal, (Source.number literal).word? = some h.dimension ∧
      Source.read h.text =
        some (.object [(dimensionUnits, .number literal),
          (metricUnits, .string (nameUnits h.metric))]) := by
  obtain ⟨dimension, metric⟩ := h
  obtain ⟨numeral, digits, scanned, literal, value⟩ := Numeral.scan_digitsOf dimension.toNat
  refine ⟨⟨false, digits, [], none⟩, Source.word?_number value, ?_⟩
  have first : Reader.start.run "\x7b\n  \"dimension\": ".toList =
      some ⟨.between, [.field [] dimensionUnits], .value⟩ := by rfl
  have number := Reader.run_numeral scanned [.field [] dimensionUnits] .value rfl
  have split : ",\n  \"metric\": ".toList = ',' :: "\n  \"metric\": ".toList := by decide
  have ran : Reader.start.run (text ⟨dimension, metric⟩) = some ⟨.between, [],
      .nothing (.object [(dimensionUnits, .number ⟨false, digits, [], none⟩),
        (metricUnits, .string (nameUnits metric))])⟩ := by
    unfold text
    simp only [List.append_assoc]
    rw [Reader.run_append_of_eq first, Reader.run_append_of_eq number, split,
      List.cons_append, Reader.run_cons, Reader.step_numeral_end literal rfl]
    cases metric <;> rfl
  exact congrArg (Option.bind · Reader.finish) ran

/-- **A header is read back from its text.** -/
theorem read?_text (h : Header) : read? h.text = some h := by
  obtain ⟨literal, word, read⟩ := read_text h
  have columns (s t : Source) : Source.columns ["dimension", "metric"]
      (.object [(dimensionUnits, s), (metricUnits, t)]) = some [some s, some t] := by rfl
  have metric : metric? (.string (nameUnits h.metric)) = some h.metric := by
    cases h.metric <;> rfl
  simp [read?, read, columns, word, metric]

end Header

namespace Collection

theorem readHeader_bytes {f : Folder} {h : Header}
    (present : Entries.get? headerName f = some (.file h.bytes)) (path : String) :
    readHeader path f = .ok h := by
  rw [readHeader, Folder.readText_ofText present]
  dsimp only
  rw [Header.read?_text]

/-- A header passes the check of what it was made with, and of nothing else. -/
theorem checkHeader_eq_ok_iff (path : String) (stored asked : Header) :
    checkHeader path stored asked = .ok () ↔ stored = asked := by
  obtain ⟨d, m⟩ := stored
  obtain ⟨e, n⟩ := asked
  unfold checkHeader
  split
  · rename_i different
    simp only [reduceCtorEq, Header.mk.injEq, false_iff]
    exact fun same => different same.1
  · rename_i sameDimension
    split
    · rename_i different
      simp only [reduceCtorEq, Header.mk.injEq, false_iff]
      exact fun same => different same.2
    · rename_i sameMetric
      simp only [ne_eq, Decidable.not_not] at sameDimension sameMetric
      simp [sameDimension, sameMetric]

/-- What fails the check is refused as a mismatch. -/
theorem checkHeader_mismatch {stored asked : Header} (different : stored ≠ asked) (path : String) :
    ∃ message, checkHeader path stored asked = .error (.configMismatch message) := by
  cases checked : checkHeader path stored asked with
  | ok _ => exact absurd ((checkHeader_eq_ok_iff path stored asked).1 checked) different
  | error e =>
      unfold checkHeader at checked
      split at checked
      · cases checked
        exact ⟨_, rfl⟩
      · split at checked
        · cases checked
          exact ⟨_, rfl⟩
        · cases checked

end Collection

end Retrieval
