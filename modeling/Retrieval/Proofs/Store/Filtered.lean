/-
# Retrieval.Proofs.Store.Filtered -- a filter costs no places

A filter is applied inside of the search, before the `k` nearest are chosen.  The
other way to filter is to rank everything the backend holds, to join it with the
documents, and to keep from the front those that the filter accepts.  Both give the
same list (`Store.nearest_filter`): a number without a document is a candidate in
neither, so it takes no place from the others.

`Store.search_filtered` is this for every store that was made, after any requests,
also when it was made on an old collection.
-/
import Retrieval.Proofs.Store.Scores

namespace Retrieval

set_option autoImplicit false

namespace Store

variable {σ : Type} {e : Embedder σ} {start : Index} {s : Store}
variable {ingested : List (Document × Embedding)}

/-! ## Joining -/

/-- A hit with its document, if there is one. -/
def joined (s : Store) (hit : Hit) : Option (Document × Binary32) :=
  (s.documents.get? hit.1).map fun d => (d, hit.2)

theorem join_found (s : Store) (hits : List Hit) : (s.join hits).found = hits.filterMap s.joined :=
  rfl

/-- A hit that a filter leaves is one whose document the filter accepts. -/
theorem filterMap_candidate (s : Store) (filter : Filter) (hits : List Hit) :
    (hits.filter fun hit => s.candidate (some filter) hit.1).filterMap s.joined =
      (hits.filterMap s.joined).filter fun pair => filter.accepts pair.1.metadata := by
  induction hits with
  | nil => rfl
  | cons hit hits ih =>
      cases found : s.documents.get? hit.1 with
      | none =>
          have unknown : s.joined hit = none := by simp [joined, found]
          have refused : s.candidate (some filter) hit.1 = false := by simp [candidate, found]
          simp [unknown, refused, ih]
      | some d =>
          have known : s.joined hit = some (d, hit.2) := by simp [joined, found]
          have same : s.candidate (some filter) hit.1 = filter.accepts d.metadata := by
            simp [candidate, found]
          cases accepted : filter.accepts d.metadata with
          | false => simp [known, same, accepted, ih]
          | true => simp [known, same, accepted, ih]

/-- A candidate of a filter has a document, which the filter accepts. -/
theorem exists_of_candidate {filter : Filter} {id : DocumentId}
    (accepted : s.candidate (some filter) id = true) :
    ∃ d, s.documents.get? id = some d ∧ filter.accepts d.metadata = true := by
  cases found : s.documents.get? id with
  | none => simp [candidate, found] at accepted
  | some d => exact ⟨d, rfl, by simpa [candidate, found] using accepted⟩

/-- What all have a partner, the first `k` have the first `k` partners. -/
theorem filterMap_take {α β : Type} {f : α → Option β} {xs : List α}
    (all : ∀ x ∈ xs, (f x).isSome = true) (k : Nat) :
    (xs.take k).filterMap f = (xs.filterMap f).take k := by
  induction xs generalizing k with
  | nil => simp
  | cons x xs ih =>
      obtain ⟨y, here⟩ := Option.isSome_iff_exists.1 (all x (by simp))
      cases k with
      | zero => simp
      | succ k =>
          have later := ih (fun z member => all z (List.mem_cons_of_mem _ member)) k
          simp [here, later]

/-! ## One search -/

/-- **Filtering in the search is filtering its ranking of everything.** -/
theorem nearest_filter (ordered : s.backend.index.Ordered)
    (dimension : s.backend.index.dimension = s.dimension) {query : Embedding}
    (valid : query.Valid s.dimension) (k : Nat) (filter : Filter) {n : Nat}
    (enough : s.backendSize ≤ n) :
    ∃ report, s.nearest query n none = .ok report ∧
      (s.nearest query k (some filter)).map Report.found =
        .ok ((report.found.filter fun pair => filter.accepts pair.1.metadata).take k) := by
  have faultless : query.fault? s.dimension = none := Embedding.fault?_eq_none_iff.2 valid
  obtain ⟨all, ranked, chosen⟩ := Index.search_accept ordered (dimension.symm ▸ faultless) k
    (s.candidate (some filter)) enough
  refine ⟨s.join all, ?_, ?_⟩
  · have everything : s.candidate none = fun _ => true := rfl
    simp only [nearest, faultless, everything, ranked]
  · simp only [nearest, faultless, chosen, Except.map, join_found]
    rw [filterMap_take, filterMap_candidate]
    intro hit member
    obtain ⟨d, found, -⟩ := exists_of_candidate (List.mem_filter.1 member).2
    simp [joined, found]

/-- A search with an embedding for its query is a search for the nearest. -/
theorem search_eq_nearest {query : String} {k : Nat} (positive : 1 ≤ k) {service : σ}
    {v : Embedding} (embedded : (e.one query service).1 = .ok v) (filter : Option Filter) :
    (s.search e query k filter service).1 = s.nearest v k filter := by
  have some : k ≠ 0 := by omega
  cases answered : e.one query service with
  | mk answer after =>
      rw [answered] at embedded
      cases embedded
      rw [search, if_neg some, answered]

/-- A search succeeds when its query has an embedding, and with that the search for the
nearest succeeds. -/
theorem search_eq_ok_iff {query : String} {k : Nat} (positive : 1 ≤ k) {filter : Option Filter}
    {service : σ} {report : Report} :
    (s.search e query k filter service).1 = .ok report ↔
      ∃ v, (e.one query service).1 = .ok v ∧ s.nearest v k filter = .ok report := by
  have some : k ≠ 0 := by omega
  rw [search, if_neg some]
  cases e.one query service with
  | mk embedded after => cases embedded <;> simp

/-- Only a valid embedding is looked for. -/
theorem valid_of_nearest {v : Embedding} {k : Nat} {filter : Option Filter} {report : Report}
    (found : s.nearest v k filter = .ok report) : v.Valid s.dimension := by
  cases fault : v.fault? s.dimension with
  | none => exact Embedding.fault?_eq_none_iff.1 fault
  | some f =>
      rw [nearest, fault] at found
      cases found

/-! ## Stores that were made -/

/-- **A filtered search gives the first matches of the whole ranking.**  In every state
of a store, for a query that is given the same valid embedding in both searches: the
search for everything succeeds, and the filtered search gives the first `k` of those of
its answers whose metadata the filter accepts. -/
theorem search_filtered {o : Options} {w w₀ : World σ} {s₀ : Store}
    (created : create e o w = (.ok s₀, w₀)) {requests : List Request} {after : World σ}
    (served : s₀.serve e w₀ [] requests = (s, after, ingested))
    {query : String} {v : Embedding} {service service' : σ}
    (embedded : (e.one query service).1 = .ok v) (again : (e.one query service').1 = .ok v)
    (valid : v.Valid s.dimension) {k : Nat} (positive : 1 ≤ k) (filter : Filter) :
    ∃ pairs,
      (s.search e query (max 1 s.backendSize) none service).1.map Report.found = .ok pairs ∧
      (s.search e query k (some filter) service').1.map Report.found =
        .ok ((pairs.filter fun pair => filter.accepts pair.1.metadata).take k) := by
  obtain ⟨begun, ordered, -⟩ := create_agrees created
  have agrees := serve_agrees begun e w₀ requests
  rw [served] at agrees
  have inOrder : s.backend.index.Ordered := by
    rw [agrees.index]
    exact Index.overlay_ordered ordered _
  have dimension : s.backend.index.dimension = s.dimension := by
    rw [agrees.index, Index.overlay_dimension, agrees.dimension]
  obtain ⟨report, ranked, filtered⟩ := nearest_filter inOrder dimension valid k filter
    (Nat.le_max_right 1 s.backendSize)
  refine ⟨report.found, ?_, ?_⟩
  · rw [search_eq_nearest (Nat.le_max_left 1 _) embedded, ranked]
    rfl
  · rw [search_eq_nearest positive again, filtered]

/-! ### An old number takes no place -/

/-- Two documents in different tongues. -/
def taggedRequests : List Request :=
  [.documents .reliable [{ content := "north", metadata := [("tongue", .string "en")] },
    { content := "east", metadata := [("tongue", .string "de")] }]]

/-- The filter that refuses the nearest of them. -/
def taggedFilter : Filter := .eq "tongue" (.string "de")

theorem search_filtered_sample : ∃ s after ingested pairs,
    create sampleEmbedder { metric := .euclidean, dimension := some 2, path := some "c" }
        ⟨(), Collection.shelf ⟨2, .euclidean⟩ (Log.bytes oldLog)⟩ =
      (.ok sampleStore, ⟨(), sampleDisk⟩) ∧
    sampleStore.serve sampleEmbedder ⟨(), sampleDisk⟩ [] taggedRequests = (s, after, ingested) ∧
    s.size = 2 ∧ s.backendSize = 3 ∧
    (s.search sampleEmbedder "north" 3 none ()).1.map Report.found = .ok pairs ∧
    (s.search sampleEmbedder "north" 1 (some taggedFilter) ()).1.map Report.found =
      .ok ((pairs.filter fun pair => taggedFilter.accepts pair.1.metadata).take 1) := by
  have seen : ((sampleStore.serve sampleEmbedder ⟨(), sampleDisk⟩ [] taggedRequests).1.size,
      (sampleStore.serve sampleEmbedder ⟨(), sampleDisk⟩ [] taggedRequests).1.backendSize,
      (sampleStore.serve sampleEmbedder ⟨(), sampleDisk⟩ [] taggedRequests).1.dimension) =
        (2, 3, 2) := by decide +kernel
  cases served : sampleStore.serve sampleEmbedder ⟨(), sampleDisk⟩ [] taggedRequests with
  | mk s rest =>
      obtain ⟨after, ingested⟩ := rest
      rw [served] at seen
      obtain ⟨size, seen⟩ := Prod.mk.inj seen
      obtain ⟨held, dimension⟩ := Prod.mk.inj seen
      dsimp only at size held dimension
      have valid : Embedding.Valid s.dimension [.ofInt 0, .ofInt 1] := by
        rw [dimension]
        exact Embedding.fault?_eq_none_iff.1 (by decide)
      have embedded : (sampleEmbedder.one "north" ()).1 = .ok [.ofInt 0, .ofInt 1] := rfl
      obtain ⟨pairs, ranked, filtered⟩ := search_filtered create_sample served embedded embedded
        valid (Nat.le_refl 1) taggedFilter
      rw [held] at ranked
      exact ⟨s, after, ingested, pairs, create_sample, rfl, size, held, ranked, filtered⟩

end Store

end Retrieval
