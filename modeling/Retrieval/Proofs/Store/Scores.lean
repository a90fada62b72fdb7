/-
# Retrieval.Proofs.Store.Scores -- every score is that of the document's own embedding

A store in agreement answers a search with documents it ingested, each with the
distance of the embedding that it was ingested with (`Store.Agrees.nearest`); and when
its index held nothing at the start, every hit has a document.

`Store.serve_scores` is this for every store that was made, after any requests.
-/
import Retrieval.Proofs.Except
import Retrieval.Proofs.Index.Nearest
import Retrieval.Proofs.Store.Agreement

namespace Retrieval

set_option autoImplicit false

/-- The pair is a document that was ingested, with the distance of its own embedding. -/
def ScoredBy (ingested : List (Document × Embedding)) (metric : Metric) (query : Embedding)
    (pair : Document × Binary32) : Prop :=
  ∃ (place : Nat) (v : Embedding), ingested[place]? = some (pair.1, v) ∧
    pair.2 = metric.distance query v

namespace Store

variable {σ : Type} {e : Embedder σ} {start : Index} {s : Store}
variable {ingested : List (Document × Embedding)}

/-! ## Looking up -/

namespace Agrees

theorem document_eq (agrees : Agrees start s ingested) (id : DocumentId) :
    s.documents.get? id = ingested[id.toNat]?.map Prod.fst := by
  rw [Documents.get?, ← Array.getElem?_toList, agrees.documents, List.getElem?_map]

theorem embedding_eq (agrees : Agrees start s ingested)
    (fits : s.documents.size ≤ UInt64.size) (id : DocumentId) :
    s.backend.index.get? id = (ingested[id.toNat]?.map Prod.snd).or (start.get? id) := by
  rw [agrees.index, Index.get?_overlay_numbered (agrees.size_eq ▸ fits)]

/-- Below the number of documents is the embedding of the document, elsewhere what was
there at the start. -/
theorem embedding_eq_ite (agrees : Agrees start s ingested)
    (fits : s.documents.size ≤ UInt64.size) (id : DocumentId) :
    s.backend.index.get? id =
      if id.toNat < s.documents.size then ingested[id.toNat]?.map Prod.snd
      else start.get? id := by
  rw [agrees.embedding_eq fits, agrees.size_eq]
  split
  · rename_i inside
    rw [List.getElem?_eq_getElem inside]
    rfl
  · rename_i past
    rw [List.getElem?_eq_none (Nat.le_of_not_lt past)]
    rfl

/-! ## Searching -/

/-- **The nearest documents are scored by their own embeddings.** -/
theorem nearest (agrees : Agrees start s ingested) (ordered : start.Ordered)
    (fits : s.documents.size ≤ UInt64.size) {query : Embedding} {k : Nat}
    {filter : Option Filter} {report : Report}
    (found : s.nearest query k filter = .ok report) :
    (∀ pair ∈ report.found, ScoredBy ingested s.metric query pair) ∧
      (start.vectors = [] → report.dropped = []) := by
  have inOrder : s.backend.index.Ordered := agrees.index ▸ Index.overlay_ordered ordered _
  have metric : s.backend.index.metric = s.metric := by
    rw [agrees.index, Index.overlay_metric, agrees.metric]
  have dimension : s.backend.index.dimension = s.dimension := by
    rw [agrees.index, Index.overlay_dimension, agrees.dimension]
  unfold Store.nearest at found
  split at found
  · cases found
  · rename_i valid
    obtain ⟨hits, searched, isNearest⟩ :=
      Index.search_isNearest inOrder (dimension.symm ▸ valid) k (s.candidate filter)
    rw [searched] at found
    cases found
    constructor
    · intro pair member
      obtain ⟨hit, isHit, joined⟩ := List.mem_filterMap.1 member
      obtain ⟨d, isDocument, rfl⟩ := Option.map_eq_some_iff.1 joined
      obtain ⟨-, v, stored, distance⟩ := isNearest.stored hit isHit
      rw [agrees.document_eq] at isDocument
      obtain ⟨⟨d', own⟩, atPlace, same⟩ := Option.map_eq_some_iff.1 isDocument
      rw [agrees.embedding_eq fits, atPlace] at stored
      cases stored
      cases same
      exact ⟨hit.1.toNat, own, atPlace, metric ▸ distance⟩
    · intro empty
      apply List.map_eq_nil_iff.2
      apply List.filter_eq_nil_iff.2
      intro hit isHit missing
      obtain ⟨-, v, stored, -⟩ := isNearest.stored hit isHit
      have nothing : start.get? hit.1 = none := by rw [Index.get?, empty, Entries.get?_nil]
      rw [agrees.document_eq, Option.isNone_iff_eq_none, Option.map_eq_none_iff] at missing
      rw [agrees.embedding_eq fits, missing, nothing] at stored
      cases stored

end Agrees

/-- A search looks for the embedding of its query. -/
theorem search_eq_ok {query : String} {k : Nat} {filter : Option Filter} {service after : σ}
    {report : Report} (found : s.search e query k filter service = (.ok report, after)) :
    ∃ v, e.one query service = (.ok v, after) ∧ s.nearest v k filter = .ok report := by
  unfold search at found
  split at found
  · cases found
  · split at found
    · cases found
    · rename_i v service' embedded
      obtain ⟨answer, rfl⟩ := Prod.mk.inj found
      exact ⟨v, embedded, answer⟩

/-- A batch of searches looks for the embeddings of its queries, one each. -/
theorem searchBatch_eq_ok {queries : List String} {k : Nat} {service after : σ}
    {answers : List (List (Document × Binary32))}
    (found : s.searchBatch e queries k service = (.ok answers, after)) :
    ∃ vectors, (queries = [] ∧ vectors = [] ∨ e.batch queries service = (.ok vectors, after)) ∧
      List.Forall₂ (fun v answer => ∃ report, s.nearest v k none = .ok report ∧
        report.found = answer) vectors answers := by
  unfold searchBatch at found
  split at found
  · cases found
  · split at found
    · rename_i empty
      cases found
      exact ⟨[], .inl ⟨List.isEmpty_iff.1 empty, rfl⟩, .nil⟩
    · split at found
      · cases found
      · rename_i vectors service' embedded
        split at found
        · cases found
        · obtain ⟨done, rfl⟩ := Prod.mk.inj found
          exact ⟨vectors, .inr embedded, (mapM_eq_ok_iff.1 done).imp fun _ _ => map_eq_ok_iff.1⟩

/-! ## Stores that were made -/

/-- A store that was made has no documents, and an index in order. -/
theorem create_agrees {o : Options} {w after : World σ}
    (created : create e o w = (.ok s, after)) :
    Agrees s.backend.index s [] ∧ s.backend.index.Ordered ∧
      (o.path = none → s.backend.index.vectors = []) := by
  unfold create at created
  split at created
  · cases created
  · split at created
    · cases created
    · split at created
      · cases created
      · rename_i opened
        cases created
        obtain ⟨records, -, index, -⟩ := Backend.openAt_index opened
        refine ⟨⟨rfl, rfl, ?_, ?_⟩, ?_, ?_⟩
        · show o.metric = _
          rw [index]
          rfl
        · dsimp only
          rw [index]
          rfl
        · dsimp only
          rw [index]
          exact Index.overlay_ordered (Collection.fresh_ordered _) _
        · intro inMemory
          rw [inMemory] at opened
          dsimp only
          rw [Backend.openAt_ephemeral opened]
          rfl

/-- **Documents and embeddings agree in every state of a store.** -/
theorem serve_scores {o : Options} {w w₀ : World σ} {s₀ : Store}
    (created : create e o w = (.ok s₀, w₀)) {requests : List Request} {after : World σ}
    (served : s₀.serve e w₀ [] requests = (s, after, ingested))
    (fits : s.documents.size ≤ UInt64.size) :
    s.documents.entries.toList = ingested.map Prod.fst ∧
    (∀ id, s.backend.index.get? id =
      if id.toNat < s.documents.size then ingested[id.toNat]?.map Prod.snd
      else s₀.backend.index.get? id) ∧
    (∀ query k filter service after report,
      s.search e query k filter service = (.ok report, after) →
        ∃ v, e.one query service = (.ok v, after) ∧
          ∀ pair ∈ report.found, ScoredBy ingested s.metric v pair) ∧
    (∀ queries k service after answers,
      s.searchBatch e queries k service = (.ok answers, after) →
        ∃ vectors,
          (queries = [] ∧ vectors = [] ∨ e.batch queries service = (.ok vectors, after)) ∧
          List.Forall₂ (fun v answer => ∀ pair ∈ answer, ScoredBy ingested s.metric v pair)
            vectors answers) ∧
    (o.path = none ∨ s₀.backendSize = 0 →
      (∀ id, (s.backend.index.get? id).isSome ↔ id.toNat < s.documents.size) ∧
      ∀ query k filter report, s.nearest query k filter = .ok report → report.dropped = []) := by
  obtain ⟨begun, ordered, inMemory⟩ := create_agrees created
  have agrees := serve_agrees begun e w₀ requests
  rw [served] at agrees
  refine ⟨agrees.documents, agrees.embedding_eq_ite fits, ?_, ?_, ?_⟩
  · intro query k filter service after report found
    obtain ⟨v, embedded, answered⟩ := search_eq_ok found
    exact ⟨v, embedded, (agrees.nearest ordered fits answered).1⟩
  · intro queries k service after answers found
    obtain ⟨vectors, embedded, answered⟩ := searchBatch_eq_ok found
    refine ⟨vectors, embedded, answered.imp ?_⟩
    rintro v answer ⟨report, reported, rfl⟩
    exact (agrees.nearest ordered fits reported).1
  · intro empty
    have nothing : s₀.backend.index.vectors = [] :=
      empty.elim inMemory List.length_eq_zero_iff.1
    constructor
    · intro id
      rw [agrees.embedding_eq_ite fits, Index.get?, nothing, Entries.get?_nil]
      by_cases inside : id.toNat < s.documents.size
      · have there : id.toNat < ingested.length := agrees.size_eq ▸ inside
        simp [List.getElem?_eq_getElem there, inside]
      · simp [inside]
    · intro query k filter report answered
      exact (agrees.nearest ordered fits answered).2 nothing

/-! ### A store on an old collection -/

/-- An embedder of two texts; for any other its embedding is not valid. -/
def sampleEmbedder : Embedder Unit :=
  .ofOne fun text service =>
    if text = "north" then (.ok [.ofInt 0, .ofInt 1], service)
    else if text = "east" then (.ok [.ofInt 1, .ofInt 0], service)
    else (.ok [.nan, .nan], service)

/-- What an earlier instance left in the log. -/
def oldLog : List Record := [⟨0, [.ofInt 5, .ofInt 5]⟩, ⟨7, [.ofInt 5, .ofInt 5]⟩]

/-- The store that finds the old log. -/
def sampleStore : Store where
  metric := .euclidean
  dimension := 2
  path := some "c"
  backend := .durable
    ⟨"c", (Collection.fresh ⟨2, .euclidean⟩).overlay (oldLog.map Record.entry), []⟩

/-- The second of three documents is not valid, and the second flush fails. -/
def sampleRequests : List Request :=
  [.documents .reliable [{ content := "north" }, { content := "south" }, { content := "east" }],
    .texts (.limited 0) ["east"] none, .search "east" 1 none]

/-- The disk after the store was made. -/
def sampleDisk : Disk :=
  (Collection.openAt "c" ⟨2, .euclidean⟩
    (Collection.shelf ⟨2, .euclidean⟩ (Log.bytes oldLog))).1

/-- The store after a document took one of the old numbers. -/
def partlyKnown : Store :=
  (sampleStore.step sampleEmbedder ⟨(), sampleDisk⟩ (.texts .reliable ["north"] none)).1

theorem openAt_sample :
    Collection.openAt "c" ⟨2, .euclidean⟩
        (Collection.shelf ⟨2, .euclidean⟩ (Log.bytes oldLog)) =
      (sampleDisk, .ok ⟨"c", sampleStore.backend.index, []⟩) := by
  have sound : ∀ r ∈ oldLog, r.Sound 2 := by
    have valid : ∀ r ∈ oldLog, r.vector.fault? 2 = none := by decide
    have legible : ∀ r ∈ oldLog, ∀ x ∈ r.vector, x.Legible := by decide +kernel
    exact fun r member => ⟨Embedding.fault?_eq_none_iff.1 (valid r member), legible r member⟩
  have stored := Collection.shelf_storedAt ⟨2, .euclidean⟩ (Log.bytes oldLog)
  rw [Log.bytes_eq] at stored
  have replayed : Log.replay (Collection.fresh ⟨2, .euclidean⟩) (Log.text oldLog) =
      .ok (sampleStore.backend.index, none) := Log.replay_text sound
  obtain ⟨disk, opened, -⟩ := Collection.openAt_of_whole stored replayed
  rw [sampleDisk, Log.bytes_eq, opened]

theorem create_sample :
    create sampleEmbedder { metric := .euclidean, dimension := some 2, path := some "c" }
      ⟨(), Collection.shelf ⟨2, .euclidean⟩ (Log.bytes oldLog)⟩ =
        (.ok sampleStore, ⟨(), sampleDisk⟩) := by
  simp only [create, resolveDimension, Backend.openAt, openAt_sample]
  rfl

theorem serve_scores_sample :
    create sampleEmbedder { metric := .euclidean, dimension := some 2, path := some "c" }
        ⟨(), Collection.shelf ⟨2, .euclidean⟩ (Log.bytes oldLog)⟩ =
      (.ok sampleStore, ⟨(), sampleDisk⟩) ∧
    ∃ s after ingested,
      sampleStore.serve sampleEmbedder ⟨(), sampleDisk⟩ [] sampleRequests = (s, after, ingested) ∧
      s.documents.size = 2 ∧ s.backend.index.get? 0 = some [.ofInt 0, .ofInt 1] ∧
      s.backend.index.get? 1 = some [.ofInt 1, .ofInt 0] ∧
      s.backend.index.get? 7 = some [.ofInt 5, .ofInt 5] := by
  refine ⟨create_sample, ?_⟩
  have size : (sampleStore.serve sampleEmbedder ⟨(), sampleDisk⟩ [] sampleRequests).1.size = 2 := by
    decide +kernel
  have embeddings :
      (sampleStore.serve sampleEmbedder ⟨(), sampleDisk⟩ [] sampleRequests).2.2.map Prod.snd =
        [[.ofInt 0, .ofInt 1], [.ofInt 1, .ofInt 0]] := by decide +kernel
  have old : sampleStore.backend.index.get? 7 = some [.ofInt 5, .ofInt 5] := by decide +kernel
  cases served : sampleStore.serve sampleEmbedder ⟨(), sampleDisk⟩ [] sampleRequests with
  | mk s rest =>
      obtain ⟨after, ingested⟩ := rest
      rw [served] at size embeddings
      replace size : s.documents.size = 2 := size
      have fits : s.documents.size ≤ UInt64.size := size.symm ▸ by decide
      obtain ⟨-, embedding, -⟩ := serve_scores create_sample served fits
      refine ⟨s, after, ingested, rfl, size, ?_, ?_, ?_⟩
      · rw [embedding, if_pos (size.symm ▸ by decide), ← List.getElem?_map, embeddings]
        rfl
      · rw [embedding, if_pos (size.symm ▸ by decide), ← List.getElem?_map, embeddings]
        rfl
      · rw [embedding, if_neg (size.symm ▸ by decide), old]

end Store

end Retrieval
