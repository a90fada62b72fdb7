/-
# Retrieval.Proofs.Index.Euclidean -- an exact match is found first

By the distance in space an embedding is at positive zero from itself, and no distance
ranks before that (`Binary.IsUnsigned.not_before_zero`).  So a search for what is stored
meets a hit at positive zero first, under the same number or under a smaller one
(`Index.finds_exact_match`).  What else it gives are numbers without a sign; a distance
that overflows is positive infinity.
-/
import Retrieval.Proofs.Binary.Unsigned
import Retrieval.Proofs.Index.Ties

namespace Retrieval

set_option autoImplicit false

/-- Nothing without a sign ranks before positive zero. -/
theorem Binary.IsUnsigned.not_before_zero {F : Format} {x : Binary F} (unsigned : x.IsUnsigned) :
    ¬ x.Before (zero false) := by
  obtain ⟨code, bounded, rfl⟩ := unsigned
  exact Nat.not_lt_zero code

theorem Binary.IsUnsigned.zero_before_iff {F : Format} {x : Binary F} (unsigned : x.IsUnsigned) :
    (zero false).Before x ↔ x ≠ zero false := by
  obtain ⟨code, bounded, rfl⟩ := unsigned
  rw [Ne, number_eq_zero_iff, and_iff_right rfl]
  exact Nat.pos_iff_ne_zero

namespace Index

/-- The distance in space between two valid embeddings. -/
theorem euclidean_of_valid {dimension : UInt64} {query v : Embedding}
    (query_valid : query.Valid dimension) (valid : v.Valid dimension) :
    (Embedding.euclidean query v).IsUnsigned ∧
      (Embedding.Overflows query v → Embedding.euclidean query v = .infinite false) :=
  ⟨Embedding.euclidean_isUnsigned (query_valid.length_eq.trans valid.length_eq.symm)
      query_valid.positive query_valid.finite valid.finite,
    Embedding.euclidean_of_overflows query_valid.finite valid.finite⟩

/-- **A search by the distance in space finds an exact match first.**  After any history of
insertions, a search for an embedding that is stored under an accepted number begins with a
hit at positive zero, whose number is not greater than that one.  For every valid query the
hits are at numbers without a sign, at positive infinity where the distance overflows. -/
theorem finds_exact_match (dimension : UInt64) (history : List (DocumentId × Embedding)) :
    let index := ({ metric := .euclidean, dimension } : Index).offerAll history
    (∀ id v, index.get? id = some v → ∀ k, 0 < k → ∀ accept : DocumentId → Bool,
      accept id = true → ∃ first rest, index.search v k accept = .ok (first :: rest) ∧
        first.2 = .zero false ∧ first.1 ≤ id) ∧
    ∀ query : Embedding, query.Valid dimension → ∀ k accept,
      ∃ hits, index.search query k accept = .ok hits ∧ ∀ hit ∈ hits, hit.2.IsUnsigned ∧
        ∀ v, index.get? hit.1 = some v → Embedding.Overflows query v →
          hit.2 = .infinite false := by
  intro index
  have fresh : ({ metric := .euclidean, dimension } : Index).Ordered := Entries.ordered_nil
  have ordered : index.Ordered := offerAll_ordered fresh history
  have isEuclidean : index.metric = .euclidean := by
    rw [show index = _ from offerAll_eq _ history, overlay_metric]
  have sameDimension : index.dimension = dimension := by
    rw [show index = _ from offerAll_eq _ history, overlay_dimension]
  have searched (query : Embedding) (valid : query.Valid dimension) (k : Nat)
      (accept : DocumentId → Bool) :=
    search_isNearest ordered (Embedding.fault?_eq_none_iff.2 (sameDimension.symm ▸ valid)) k accept
  constructor
  · intro id v stored k some accept accepted
    have valid : v.Valid dimension := valid_of_offerAll stored
    obtain ⟨hits, found, nearest⟩ := searched v valid k accept
    obtain ⟨first, rest, rfl, least⟩ := nearest.exists_first some stored accepted
    refine ⟨first, rest, found, ?_⟩
    have self : index.metric.distance v v = .zero false := by
      rw [isEuclidean]
      exact Embedding.euclidean_self valid.positive valid.finite
    rw [self] at least
    rcases least with rfl | before | ⟨same, less⟩
    · exact ⟨rfl, Std.le_refl _⟩
    · -- nothing ranks before positive zero
      obtain ⟨-, w, storedFirst, distance⟩ := nearest.stored first List.mem_cons_self
      rw [isEuclidean] at distance
      have unsigned := (euclidean_of_valid valid (valid_of_offerAll storedFirst)).1
      rw [distance] at before
      exact absurd before unsigned.not_before_zero
    · exact ⟨same, Std.le_of_lt less⟩
  · intro query valid k accept
    obtain ⟨hits, found, nearest⟩ := searched query valid k accept
    refine ⟨hits, found, fun hit member => ?_⟩
    obtain ⟨-, w, stored, distance⟩ := nearest.stored hit member
    rw [isEuclidean] at distance
    obtain ⟨unsigned, overflow⟩ := euclidean_of_valid valid (valid_of_offerAll stored)
    rw [distance]
    refine ⟨unsigned, fun v found overflows => ?_⟩
    cases stored.symm.trans found
    exact overflow overflows

/-- The largest finite float. -/
def largest : Binary32 := .number false 0x7f7fffff (by decide)

/-- One is stored twice, and the largest float. -/
def repeated : List (DocumentId × Embedding) :=
  [(7, [.ofInt 1]), (3, [.ofInt 1]), (5, [largest])]

theorem finds_exact_match_repeated :
    let index := ({ metric := .euclidean, dimension := 1 } : Index).offerAll repeated
    index.get? 7 = some [.ofInt 1] ∧
    (∃ first rest, index.search [.ofInt 1] 2 (fun _ => true) = .ok (first :: rest) ∧
      first.2 = .zero false ∧ first.1 ≤ 7) ∧
    Embedding.Valid 1 [-largest] ∧ Embedding.Overflows [-largest] [largest] ∧
    ∃ hits, index.search [-largest] 3 (fun _ => true) = .ok hits ∧ ∀ hit ∈ hits,
      hit.2.IsUnsigned ∧ (hit.1 = 5 → hit.2 = .infinite false) := by
  intro index
  obtain ⟨exact, every⟩ := finds_exact_match 1 repeated
  have seven : index.get? 7 = some [.ofInt 1] := by decide +kernel
  have five : index.get? 5 = some [largest] := by decide +kernel
  have valid : Embedding.Valid 1 [-largest] := Embedding.fault?_eq_none_iff.1 (by decide +kernel)
  have overflows : Embedding.Overflows [-largest] [largest] := ⟨1, by decide +kernel⟩
  obtain ⟨hits, found, scored⟩ := every [-largest] valid 3 fun _ => true
  refine ⟨seven, exact 7 _ seven 2 (by decide) _ rfl, valid, overflows, hits, found, ?_⟩
  intro hit member
  obtain ⟨unsigned, overflow⟩ := scored hit member
  refine ⟨unsigned, fun isFive => overflow [largest] ?_ overflows⟩
  rw [isFive]
  exact five

end Index

end Retrieval
