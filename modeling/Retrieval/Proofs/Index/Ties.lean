/-
# Retrieval.Proofs.Index.Ties -- hits at equal distances

Hits in the same place of the ranking come in ascending order of their numbers.  Places
are finer than distances: the two zeros are equal as numbers and differ in the ranking,
where negative zero comes first (`Binary.equal_iff`).  So of two hits at equal distances
the one with the smaller number comes first unless it is at positive zero and the other
one at negative zero, and that takes the inner product (`Index.ties_ascend_iff`).  It
does happen (`Index.zeros_break_ties`).
-/
import Retrieval.Proofs.Binary.Comparison
import Retrieval.Proofs.Binary.Zero
import Retrieval.Proofs.Index.Nearest

namespace Retrieval

set_option autoImplicit false

namespace Hit

variable {a b : Hit}

/-- A hit that comes before another at an equal distance has the smaller number, or it
is at negative zero and the other at positive zero. -/
theorem Precedes.of_equal (precedes : a.Precedes b) (equal : Binary.equal a.2 b.2 = true) :
    a.1 < b.1 ∨ a.2 = .zero true ∧ b.2 = .zero false := by
  rcases precedes with strict | ⟨-, less⟩
  · rcases (Binary.equal_iff a.2 b.2).1 equal with ⟨-, same⟩ | ⟨positive, negative⟩ | zeros
    · rw [same] at strict
      exact (strict.asymm strict).elim
    · rw [positive, negative] at strict
      exact strict.elim
    · exact .inr zeros
  · exact .inl less

/-- **In strict order, of two hits at equal distances the smaller number stands first but
for the two zeros.** -/
theorem pair_sublist_iff {hits : List Hit} (ascending : hits.Pairwise Precedes)
    (memberA : a ∈ hits) (memberB : b ∈ hits) (equal : Binary.equal a.2 b.2 = true)
    (less : a.1 < b.1) :
    [a, b].Sublist hits ↔ ¬ (a.2 = .zero false ∧ b.2 = .zero true) := by
  have ordered {c d : Hit} (stands : [c, d].Sublist hits) : c.Precedes d :=
    List.pairwise_iff_forall_sublist.1 ascending stands
  constructor
  · rintro first ⟨positive, negative⟩
    have precedes := ordered first
    rw [Precedes, positive, negative] at precedes
    rcases precedes with impossible | ⟨impossible, -⟩
    · exact impossible
    · cases impossible
  · intro apart
    have different : a ≠ b := by
      rintro rfl
      exact Std.lt_irrefl less
    refine (pair_sublist_or memberA memberB different).resolve_right fun swapped => ?_
    rcases (ordered swapped).of_equal (Binary.equal_symm equal) with less' | zeros
    · exact Std.lt_irrefl (Std.lt_trans less less')
    · exact apart zeros.symm

end Hit

namespace Index

/-- What an index holds after insertions is valid for its dimension. -/
theorem valid_of_offerAll {metric : Metric} {dimension : UInt64}
    {history : List (DocumentId × Embedding)} {id : DocumentId} {v : Embedding}
    (found : (({ metric, dimension } : Index).offerAll history).get? id = some v) :
    v.Valid dimension := by
  rw [offerAll_eq, get?_overlay, show ({ metric, dimension } : Index).get? id = none from rfl,
    Option.or_none] at found
  have member := List.mem_reverse.1 (Entries.mem_of_get? found)
  exact Embedding.fault?_eq_none_iff.1 (by simpa using (List.mem_filter.1 member).2)

/-- **Equal distances come in ascending order of the numbers, but for the two zeros of an
inner product.**  After any history of insertions, of two hits at equal distances the one
with the smaller number stands first unless the metric is the inner product and that hit
is at positive zero while the other is at negative zero. -/
theorem ties_ascend_iff (metric : Metric) (dimension : UInt64)
    (history : List (DocumentId × Embedding)) (query : Embedding)
    (valid : query.Valid dimension) (k : Nat) (accept : DocumentId → Bool) :
    ∃ hits, (({ metric, dimension } : Index).offerAll history).search query k accept = .ok hits ∧
      ∀ a ∈ hits, ∀ b ∈ hits, Binary.equal a.2 b.2 = true → a.1 < b.1 →
        ([a, b].Sublist hits ↔ ¬ (metric = .dot ∧ a.2 = .zero false ∧ b.2 = .zero true)) := by
  have fresh : ({ metric, dimension } : Index).Ordered := Entries.ordered_nil
  have fixed : (({ metric, dimension } : Index).offerAll history).metric = metric ∧
      (({ metric, dimension } : Index).offerAll history).dimension = dimension := by
    rw [offerAll_eq, overlay_metric, overlay_dimension]
    exact ⟨rfl, rfl⟩
  obtain ⟨hits, found, nearest⟩ := search_isNearest (offerAll_ordered fresh history)
    (Embedding.fault?_eq_none_iff.2 (fixed.2.symm ▸ valid)) k accept
  refine ⟨hits, found, fun a memberA b memberB equal less => ?_⟩
  rw [Hit.pair_sublist_iff nearest.ascending memberA memberB equal less]
  refine not_congr ⟨fun zeros => ⟨?_, zeros⟩, fun told => told.2⟩
  obtain ⟨-, v, stored, distance⟩ := nearest.stored b memberB
  have same : query.length = v.length :=
    valid.length_eq.trans (valid_of_offerAll stored).length_eq.symm
  rw [fixed.1] at distance
  exact Metric.eq_dot_of_distance same valid.positive (distance ▸ zeros.2)

/-- Three and seven are equally far from zero, and seven was inserted first. -/
def tied : Index :=
  ({ metric := .euclidean, dimension := 1 } : Index).offerAll [(7, [.ofInt 1]), (3, [.ofInt (-1)])]

theorem ties_ascend_iff_sample :
    Embedding.Valid 1 [.ofInt 0] ∧
      ∃ hits, tied.search [.ofInt 0] 5 (fun _ => true) = .ok hits ∧
        [((3, .ofInt 1) : Hit), (7, .ofInt 1)].Sublist hits := by
  have valid : Embedding.Valid 1 [.ofInt 0] := Embedding.fault?_eq_none_iff.1 (by decide)
  obtain ⟨hits, found, ties⟩ := ties_ascend_iff .euclidean 1
    [(7, [.ofInt 1]), (3, [.ofInt (-1)])] [.ofInt 0] valid 5 fun _ => true
  have candidates : tied.candidates [.ofInt 0] (fun _ => true) =
      [(3, .ofInt 1), (7, .ofInt 1)] := by decide +kernel
  have sorted : hits = [(3, .ofInt 1), (7, .ofInt 1)] := by
    refine Except.ok.inj (found.symm.trans ?_)
    rw [← tied, search_of_valid (by decide), candidates,
      List.mergeSort_of_pairwise (by decide +kernel)]
    rfl
  refine ⟨valid, hits, found, (ties _ ?_ _ ?_ ?_ ?_).2 ?_⟩
  · rw [sorted]
    exact List.mem_cons_self
  · rw [sorted]
    exact List.mem_cons_of_mem _ List.mem_cons_self
  · decide +kernel
  · decide
  · rintro ⟨isDot, -⟩
    cases isDot

/-- Negative zero under one, positive zero under two. -/
def signedZeros : Index :=
  ({ metric := .dot, dimension := 1 } : Index).offerAll [(1, [.zero true]), (2, [.zero false])]

/-- Two comes before one, although both are at distance zero from the query. -/
theorem zeros_break_ties :
    ¬ ∀ hits, signedZeros.search [.ofInt 1] 2 (fun _ => true) = .ok hits →
        ∀ a ∈ hits, ∀ b ∈ hits, Binary.equal a.2 b.2 = true → a.1 < b.1 →
          [a, b].Sublist hits := by
  intro ascend
  have candidates : signedZeros.candidates [.ofInt 1] (fun _ => true) =
      [(1, .zero false), (2, .zero true)] := by decide +kernel
  have apart : Hit.before (1, .zero false) (2, .zero true) = false := by decide
  have found : signedZeros.search [.ofInt 1] 2 (fun _ => true) =
      .ok [(2, .zero true), (1, .zero false)] := by
    rw [search_of_valid (by decide), candidates]
    simp [List.mergeSort, apart]
  have first := ascend _ found (1, .zero false) (by simp) (2, .zero true) (by simp) (by decide)
    (by decide)
  revert first
  decide

end Index

end Retrieval
