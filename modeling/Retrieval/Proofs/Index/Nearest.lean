/-
# Retrieval.Proofs.Index.Nearest -- a search gives the nearest, exactly

`Index.IsNearest` says what the answer of a search has to be, with no word on how it
is found: entries of accepted numbers with their distances, each number once, in
strict order, as many as there are up to `k`, and nothing that is left out comes
before anything that is there.  `Index.search_isNearest` is that a search of an index
in order gives such an answer, and `Index.search_accept` that it comes to the same
whether what is not accepted is left out before the ranking or after it.

`Index.search_offerAll` puts this on every history of insertions: the index holds the
last accepted embedding of each number, the search gives the nearest, and another
history that leads to the same embeddings gives the same answer.
-/
import Retrieval.Proofs.Index.Basic
import Retrieval.Proofs.Index.Ranking

namespace Retrieval

set_option autoImplicit false

namespace Index

/-- The answer to a search for the `k` accepted numbers nearest to a query. -/
structure IsNearest (index : Index) (query : Embedding) (k : Nat) (accept : DocumentId → Bool)
    (hits : List Hit) : Prop where
  /-- Every hit is an accepted number with the distance of what is stored under it. -/
  stored : ∀ hit ∈ hits, accept hit.1 = true ∧
    ∃ v, index.get? hit.1 = some v ∧ hit.2 = index.metric.distance query v
  distinct : (hits.map Prod.fst).Nodup
  length_eq : hits.length = min k (index.vectors.countP fun entry => accept entry.1)
  ascending : hits.Pairwise Hit.Precedes
  /-- What is left out comes after all that is there. -/
  minimal : ∀ id v, index.get? id = some v → accept id = true → id ∉ hits.map Prod.fst →
    ∀ hit ∈ hits, hit.Precedes (id, index.metric.distance query v)

variable {index : Index}

/-! ## Candidates -/

theorem mem_candidates (ordered : index.Ordered) (query : Embedding)
    (accept : DocumentId → Bool) (hit : Hit) :
    hit ∈ index.candidates query accept ↔ accept hit.1 = true ∧
      ∃ v, index.get? hit.1 = some v ∧ hit.2 = index.metric.distance query v := by
  simp only [candidates, List.mem_map, List.mem_filter]
  constructor
  · rintro ⟨⟨id, v⟩, ⟨member, accepted⟩, rfl⟩
    exact ⟨accepted, v, (Entries.mem_iff_get? ordered).1 member, rfl⟩
  · rintro ⟨accepted, v, found, distance⟩
    exact ⟨(hit.1, v), ⟨(Entries.mem_iff_get? ordered).2 found, accepted⟩,
      Prod.ext rfl distance.symm⟩

theorem candidates_length (query : Embedding) (accept : DocumentId → Bool) :
    (index.candidates query accept).length =
      index.vectors.countP fun entry => accept entry.1 := by
  simp [candidates, List.countP_eq_length_filter]

/-- Candidates arrive in ascending order of their numbers. -/
theorem candidates_ascending (ordered : index.Ordered) (query : Embedding)
    (accept : DocumentId → Bool) :
    (index.candidates query accept).Pairwise fun a b => a.1 < b.1 :=
  List.pairwise_map.2 (List.Pairwise.filter _ ordered)

/-! ## Searches -/

theorem search_of_valid {query : Embedding} (valid : query.fault? index.dimension = none)
    (k : Nat) (accept : DocumentId → Bool) :
    index.search query k accept =
      .ok (((index.candidates query accept).mergeSort Hit.before).take k) := by
  simp [search, valid]

/-- The first `k` of the sorted candidates are the nearest. -/
theorem take_isNearest (ordered : index.Ordered) (query : Embedding) (k : Nat)
    (accept : DocumentId → Bool) :
    index.IsNearest query k accept
      (((index.candidates query accept).mergeSort Hit.before).take k) := by
  have ascending := candidates_ascending ordered query accept
  have sorted := Hit.sorted_pairwise ascending
  have member (hit : Hit) :
      hit ∈ (index.candidates query accept).mergeSort Hit.before ↔ accept hit.1 = true ∧
        ∃ v, index.get? hit.1 = some v ∧ hit.2 = index.metric.distance query v :=
    List.mem_mergeSort.trans (mem_candidates ordered query accept hit)
  have split := List.take_append_drop k ((index.candidates query accept).mergeSort Hit.before)
  refine ⟨fun hit taken => (member hit).1 (List.mem_of_mem_take taken), ?_, ?_, ?_, ?_⟩
  · have distinct : ((index.candidates query accept).map Prod.fst).Nodup := by
      refine List.pairwise_map.2 (ascending.imp ?_)
      intro a b less same
      exact Std.lt_irrefl (same ▸ less)
    have sortedDistinct :=
      ((List.mergeSort_perm (index.candidates query accept) Hit.before).map Prod.fst).nodup_iff.2
        distinct
    exact sortedDistinct.sublist ((List.take_sublist _ _).map _)
  · rw [List.length_take, List.length_mergeSort, candidates_length]
  · exact sorted.sublist (List.take_sublist _ _)
  · intro id v found accepted absent hit taken
    have candidate := (member (id, index.metric.distance query v)).2 ⟨accepted, v, found, rfl⟩
    rw [← split] at candidate sorted
    have dropped := (List.mem_append.1 candidate).resolve_left fun taken =>
      absent (List.mem_map_of_mem taken)
    exact (List.pairwise_append.1 sorted).2.2 hit taken _ dropped

/-- **A search gives the nearest.** -/
theorem search_isNearest (ordered : index.Ordered) {query : Embedding}
    (valid : query.fault? index.dimension = none) (k : Nat) (accept : DocumentId → Bool) :
    ∃ hits, index.search query k accept = .ok hits ∧ index.IsNearest query k accept hits :=
  ⟨_, search_of_valid valid k accept, take_isNearest ordered query k accept⟩

/-- The first hit is a stored number that is accepted, or one that comes before it. -/
theorem IsNearest.exists_first {query : Embedding} {k : Nat} {accept : DocumentId → Bool}
    {hits : List Hit} (nearest : index.IsNearest query k accept hits) (some : 0 < k)
    {id : DocumentId} {v : Embedding} (found : index.get? id = Option.some v)
    (accepted : accept id = true) :
    ∃ first rest, hits = first :: rest ∧ (first = (id, index.metric.distance query v) ∨
      first.Precedes (id, index.metric.distance query v)) := by
  cases hits with
  | nil =>
      have none : (index.vectors.countP fun entry => accept entry.1) = 0 := by
        have length := nearest.length_eq
        rw [List.length_nil] at length
        omega
      have refused := List.countP_eq_zero.1 none (id, v) (Entries.mem_of_get? found)
      exact absurd accepted refused
  | cons first rest =>
      refine ⟨first, rest, rfl, ?_⟩
      by_cases there : id ∈ (first :: rest).map Prod.fst
      · obtain ⟨hit, member, rfl⟩ := List.mem_map.1 there
        obtain ⟨-, w, stored, distance⟩ := nearest.stored hit member
        cases found.symm.trans stored
        have same : hit = (hit.1, index.metric.distance query v) := Prod.ext rfl distance
        rw [← same]
        rcases List.mem_cons.1 member with rfl | later
        · exact .inl rfl
        · exact .inr ((List.pairwise_cons.1 nearest.ascending).1 hit later)
      · exact .inr (nearest.minimal id v found accepted there first List.mem_cons_self)

/-! ## Choosing before or after -/

theorem candidates_filter (query : Embedding) (accept : DocumentId → Bool) :
    index.candidates query accept =
      (index.candidates query fun _ => true).filter fun hit => accept hit.1 := by
  have everything : (index.vectors.filter fun _ => true) = index.vectors :=
    List.filter_eq_self.2 fun _ _ => rfl
  rw [candidates, candidates, everything, List.filter_map]
  rfl

/-- **Choosing among the accepted is choosing from the ranking of all.** -/
theorem search_accept (ordered : index.Ordered) {query : Embedding}
    (valid : query.fault? index.dimension = none) (k : Nat) (accept : DocumentId → Bool) {n : Nat}
    (enough : index.size ≤ n) :
    ∃ all, index.search query n (fun _ => true) = .ok all ∧
      index.search query k accept = .ok ((all.filter fun hit => accept hit.1).take k) := by
  refine ⟨_, search_of_valid valid n _, ?_⟩
  have whole : ((index.candidates query fun _ => true).mergeSort Hit.before).length ≤ n := by
    rw [List.length_mergeSort, candidates_length]
    exact Nat.le_trans List.countP_le_length enough
  rw [search_of_valid valid, List.take_of_length_le whole, candidates_filter query accept,
    Hit.sorted_filter (candidates_ascending ordered query _)]

/-! ## Histories -/

/-- An index is in order after every history of insertions. -/
theorem offerAll_ordered (ordered : index.Ordered) (pairs : List (DocumentId × Embedding)) :
    (index.offerAll pairs).Ordered := by
  rw [offerAll_eq]
  exact overlay_ordered ordered _

/-- **Exact search after any history of insertions.**  Under each number is the last
embedding that was accepted for it, a search for a valid query gives the nearest of
them, and every history that leads to the same embeddings gives the same answer. -/
theorem search_offerAll (metric : Metric) (dimension : UInt64)
    (history : List (DocumentId × Embedding)) (query : Embedding)
    (valid : query.Valid dimension) (k : Nat) (accept : DocumentId → Bool) :
    let index := ({ metric, dimension } : Index).offerAll history
    (∀ id, index.get? id = Entries.get? id (accepted dimension history).reverse) ∧
    ∃ hits, index.search query k accept = .ok hits ∧ index.IsNearest query k accept hits ∧
      ∀ history', let index' := ({ metric, dimension } : Index).offerAll history'
        (∀ id, index'.get? id = index.get? id) → index'.search query k accept = .ok hits := by
  intro index
  have fresh : ({ metric, dimension } : Index).Ordered := Entries.ordered_nil
  have content : index = ({ metric, dimension } : Index).overlay (accepted dimension history) :=
    offerAll_eq _ history
  have sameDimension : index.dimension = dimension := by rw [content, overlay_dimension]
  refine ⟨fun id => ?_, ?_⟩
  · rw [content, get?_overlay]
    exact Option.or_none
  · have faultless : query.fault? index.dimension = none := by
      rw [sameDimension]
      exact Embedding.fault?_eq_none_iff.2 valid
    obtain ⟨hits, found, nearest⟩ :=
      search_isNearest (offerAll_ordered fresh history) faultless k accept
    refine ⟨hits, found, nearest, ?_⟩
    intro history' index' same
    have equal : index' = index := by
      refine ext_of_get? ?_ ?_ (offerAll_ordered fresh history') (offerAll_ordered fresh history)
        same
      · rw [content, show index' = _ from offerAll_eq _ history']
        rfl
      · rw [content, show index' = _ from offerAll_eq _ history']
        rfl
    rw [equal, found]

/-- Nine is overwritten, and the embedding for five is refused. -/
def sampleHistory : List (DocumentId × Embedding) :=
  [(9, [.ofInt 1]), (3, [.ofInt (-1)]), (9, [.ofInt 2]), (5, [.nan])]

theorem search_offerAll_sample :
    let index := ({ metric := .euclidean, dimension := 1 } : Index).offerAll sampleHistory
    index.get? 9 = some [.ofInt 2] ∧ index.get? 5 = none ∧
      ∃ hits, index.search [.ofInt 0] 1 (· ≠ 3) = .ok hits ∧ hits.length = 1 ∧
        (({ metric := .euclidean, dimension := 1 } : Index).offerAll
          [(3, [.ofInt (-1)]), (9, [.ofInt 2])]).search [.ofInt 0] 1 (· ≠ 3) = .ok hits := by
  intro index
  have valid : Embedding.Valid 1 [.ofInt 0] := Embedding.fault?_eq_none_iff.1 (by decide)
  obtain ⟨stored, hits, found, nearest, determined⟩ :=
    search_offerAll .euclidean 1 sampleHistory [.ofInt 0] valid 1 (· ≠ 3)
  have same : (({ metric := .euclidean, dimension := 1 } : Index).offerAll
      [(3, [.ofInt (-1)]), (9, [.ofInt 2])]).vectors = index.vectors := by decide +kernel
  refine ⟨?_, ?_, hits, found, ?_, ?_⟩
  · rw [stored]
    decide
  · rw [stored]
    decide
  · rw [nearest.length_eq]
    decide +kernel
  · exact determined _ fun id => by rw [get?, same]; rfl

end Index

end Retrieval
