/-
# Retrieval.Proofs.Store.Report -- a report loses and invents nothing

A store that was made on an old collection has embeddings without documents, and what is
nearest to a query may be among them.  The report of a search has all hits, and takes them
apart (`Report.Accounts`): the hits with a number below that of the documents, in their
order, are what was found, each with its document and its distance, and the numbers of the
others, in their order, are what was dropped.

With a filter there is nothing to drop: what has no document is not a candidate.
`Store.search_accounts` is this for every search of every store that can come about.
-/
import Retrieval.Proofs.Store.Failure
import Retrieval.Proofs.Store.Filtered

namespace Retrieval

set_option autoImplicit false

/-- The report takes its hits apart: those with a document were found with it, in the order of
the hits and with their distances, and the numbers of the others were dropped, in the order
of the hits. -/
structure Report.Accounts (s : Store) (report : Report) : Prop where
  found : List.Forall₂
    (fun hit pair => s.documents.get? hit.1 = some pair.1 ∧ pair.2 = hit.2)
    (report.hits.filter fun hit => hit.1.toNat < s.size) report.found
  dropped : report.dropped =
    (report.hits.filter fun hit => ¬ hit.1.toNat < s.size).map Prod.fst

namespace Report.Accounts

variable {s : Store} {report : Report}

/-- Found and dropped are as many as the hits. -/
theorem length_add (accounts : report.Accounts s) :
    report.found.length + report.dropped.length = report.hits.length := by
  have split := List.length_eq_length_filter_add (l := report.hits)
    fun hit => decide (hit.1.toNat < s.size)
  rw [← accounts.found.length_eq, accounts.dropped, List.length_map, split]
  simp only [decide_not]

/-- A report is complete when all hits were found. -/
theorem isComplete_iff (accounts : report.Accounts s) :
    report.isComplete = true ↔ report.found.length = report.hits.length := by
  rw [Report.isComplete, List.isEmpty_iff, ← List.length_eq_zero_iff, ← accounts.length_add]
  omega

end Report.Accounts

namespace Store

variable {σ : Type} {s : Store} {k : Nat} {report : Report}

/-- A number is that of a document when it is below the number of documents. -/
theorem isSome_get? (s : Store) (id : DocumentId) :
    (s.documents.get? id).isSome = decide (id.toNat < s.size) := by
  rw [Bool.eq_iff_iff, decide_eq_true_iff, Documents.get?, isSome_getElem?]
  rfl

/-- **Joining takes the hits apart.** -/
theorem join_accounts (s : Store) (hits : List Hit) : (s.join hits).Accounts s := by
  constructor
  · rw [join_found]
    show List.Forall₂ _ (hits.filter _) _
    induction hits with
    | nil => exact .nil
    | cons hit hits ih =>
        have known := s.isSome_get? hit.1
        cases document : s.documents.get? hit.1 with
        | none =>
            rw [document] at known
            have unknown : s.joined hit = none := by rw [joined, document]; rfl
            rw [List.filter_cons_of_neg (by rw [← known]; decide),
              List.filterMap_cons_none unknown]
            exact ih
        | some d =>
            rw [document] at known
            have here : s.joined hit = some (d, hit.2) := by rw [joined, document]; rfl
            rw [List.filter_cons_of_pos (by rw [← known]; rfl), List.filterMap_cons_some here]
            exact .cons ⟨document, rfl⟩ ih
  · show ((hits.filter _).map Prod.fst) = _
    simp only [← Option.not_isSome, isSome_get?, decide_not, join]

/-- What a search for an embedding reports: the nearest candidates, joined with documents. -/
theorem nearest_join (reached : Reached s) {v : Embedding} (valid : v.Valid s.dimension) (k : Nat)
    (filter : Option Filter) :
    ∃ hits, s.nearest v k filter = .ok (s.join hits) ∧
      s.backend.index.IsNearest v k (s.candidate filter) hits := by
  have faultless : v.fault? s.dimension = none := Embedding.fault?_eq_none_iff.2 valid
  have passes : v.fault? s.backend.index.dimension = none := by rwa [reached.dimension_eq]
  obtain ⟨hits, searched, isNearest⟩ :=
    Index.search_isNearest reached.ordered passes k (s.candidate filter)
  exact ⟨hits, by rw [nearest, faultless, searched], isNearest⟩

/-- Candidates of a filter have documents that it accepts, so none of them is dropped. -/
theorem join_of_candidates {filter : Filter} {hits : List Hit}
    (accepted : ∀ hit ∈ hits, s.candidate (some filter) hit.1 = true) :
    (s.join hits).dropped = [] ∧
      ∀ pair ∈ (s.join hits).found, filter.accepts pair.1.metadata = true := by
  constructor
  · apply List.map_eq_nil_iff.2
    apply List.filter_eq_nil_iff.2
    intro hit member missing
    obtain ⟨d, document, -⟩ := exists_of_candidate (accepted hit member)
    rw [document] at missing
    cases missing
  · intro pair member
    obtain ⟨hit, isHit, joined⟩ := List.mem_filterMap.1 member
    obtain ⟨d, document, accepts⟩ := exists_of_candidate (accepted hit isHit)
    rw [document] at joined
    cases joined
    exact accepts

/-- **A report loses and invents nothing.**  In every state of a store, a search for at least
one place succeeds exactly when the embedder gives its query a valid embedding.  The hits of
its report are the nearest candidates of the backend.  They are taken apart into what was
found and what was dropped, so these are as many as the hits, and the report is complete when
all hits were found.  Without a filter there are `k` hits, or as many as the backend holds.
With a filter nothing is dropped, and the filter accepts what was found. -/
theorem search_accounts {e : Embedder σ} (reached : Reached s) (positive : 1 ≤ k) (query : String)
    (filter : Option Filter) (service : σ) :
    ((∃ report, (s.search e query k filter service).1 = .ok report) ↔
      ∃ v, (e.one query service).1 = .ok v ∧ v.Valid s.dimension) ∧
    ∀ report, (s.search e query k filter service).1 = .ok report →
      (∃ v, (e.one query service).1 = .ok v ∧
        s.backend.index.IsNearest v k (s.candidate filter) report.hits) ∧
      report.Accounts s ∧
      report.found.length + report.dropped.length = report.hits.length ∧
      (report.isComplete = true ↔ report.found.length = report.hits.length) ∧
      (filter = none → report.hits.length = min k s.backendSize) ∧
      ∀ condition, filter = some condition →
        report.dropped = [] ∧
          ∀ pair ∈ report.found, condition.accepts pair.1.metadata = true := by
  simp only [search_eq_ok_iff positive]
  constructor
  · constructor
    · rintro ⟨report, v, embedded, found⟩
      exact ⟨v, embedded, valid_of_nearest found⟩
    · rintro ⟨v, embedded, valid⟩
      obtain ⟨hits, found, -⟩ := nearest_join reached valid k filter
      exact ⟨_, v, embedded, found⟩
  · rintro report ⟨v, embedded, found⟩
    obtain ⟨hits, joined, isNearest⟩ := nearest_join reached (valid_of_nearest found) k filter
    cases joined.symm.trans found
    have accounts := s.join_accounts hits
    refine ⟨⟨v, embedded, isNearest⟩, accounts, accounts.length_add, accounts.isComplete_iff,
      ?_, ?_⟩
    · rintro rfl
      have everything : (s.backend.index.vectors.countP fun entry => s.candidate none entry.1) =
          s.backendSize := List.countP_eq_length.2 fun _ _ => rfl
      rw [← everything]
      exact isNearest.length_eq
    · rintro condition rfl
      exact join_of_candidates fun hit member => (isNearest.stored hit member).1

/-- A store that has only old numbers drops both hits.  When a document has taken one of the
numbers, a search with a filter drops nothing. -/
theorem search_accounts_sample :
    (∃ report, (sampleStore.search sampleEmbedder "east" 3 none ()).1 = .ok report ∧
      report.hits.length = 2 ∧ report.found = [] ∧
      report.dropped = report.hits.map Prod.fst ∧ ¬ report.isComplete = true) ∧
    ∃ report, (partlyKnown.search sampleEmbedder "east" 3
        (some (.ne "tongue" (.string "de"))) ()).1 = .ok report ∧ report.dropped = [] := by
  have embedded : (sampleEmbedder.one "east" ()).1 = .ok [.ofInt 1, .ofInt 0] := rfl
  have valid : Embedding.Valid 2 [.ofInt 1, .ofInt 0] :=
    Embedding.fault?_eq_none_iff.1 (by decide)
  constructor
  · have reached : Reached sampleStore := .made create_sample
    have unknown (hit : Hit) : ¬ hit.1.toNat < sampleStore.size := Nat.not_lt_zero _
    obtain ⟨succeeds, reports⟩ :=
      search_accounts (e := sampleEmbedder) (k := 3) reached (by decide) "east" none ()
    obtain ⟨report, found⟩ := succeeds.2 ⟨_, embedded, valid⟩
    obtain ⟨-, ⟨matched, dropped⟩, -, complete, unfiltered, -⟩ := reports report found
    have hits : report.hits.length = 2 := unfiltered rfl
    have unmatched : report.found = [] := by simpa [unknown] using matched
    refine ⟨report, found, hits, unmatched, by simpa [unknown] using dropped, ?_⟩
    rw [complete, unmatched, hits]
    decide
  · have reached : Reached partlyKnown := .served (.made create_sample) sampleEmbedder
      ⟨(), sampleDisk⟩ (.texts .reliable ["north"] none)
    have dimension : partlyKnown.dimension = 2 := by decide +kernel
    obtain ⟨succeeds, reports⟩ := search_accounts (e := sampleEmbedder) (k := 3) reached
      (by decide) "east" (some (.ne "tongue" (.string "de"))) ()
    obtain ⟨report, found⟩ := succeeds.2 ⟨_, embedded, dimension.symm ▸ valid⟩
    obtain ⟨-, -, -, -, -, filtered⟩ := reports report found
    exact ⟨report, found, (filtered _ rfl).1⟩

end Store

end Retrieval
