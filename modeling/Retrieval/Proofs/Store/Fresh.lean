/-
# Retrieval.Proofs.Store.Fresh -- a store made from documents where there is nothing yet

In memory, and in a folder without entries, a store is made that holds nothing
(`Store.exists_create`).  What the embedder gives for a batch of documents is valid, and no
flush fails, so all of them are entered (`Store.Steady.addDocuments_of_valid`).

So the store has these documents under their places and no others, each with the embedding
of its content (`Store.Holds`, `Store.exists_ofDocuments`).
-/
import Retrieval.Proofs.Store.Failure
import Retrieval.Proofs.Store.Likeness

namespace Retrieval

set_option autoImplicit false

variable {σ : Type} {e : Embedder σ} {embed : String → Embedding}

namespace Embedder

/-- For these texts the embedder gives the same embeddings in every state, alone and in a
batch. -/
structure Gives (e : Embedder σ) (embed : String → Embedding) (texts : List String) : Prop where
  one : ∀ text ∈ texts, ∀ service, (e.one text service).1 = .ok (embed text)
  many : ∀ asked ⊆ texts, ∀ service, (e.many asked service).1 = .ok (asked.map embed)

theorem Gives.exists_batch {texts asked : List String} (gives : e.Gives embed texts)
    (within : asked ⊆ texts) (service : σ) :
    ∃ after, e.batch asked service = (.ok (asked.map embed), after) := by
  have answer := gives.many asked within service
  cases answered : e.many asked service with
  | mk vectors after =>
      rw [answered] at answer
      cases answer
      exact ⟨after, by simp only [batch, answered, List.length_map, if_true]⟩

/-- An embedder of single texts embeds a batch alike. -/
theorem gives_ofOne {one : String → σ → Except EmbedderError Embedding × σ}
    (always : ∀ text service, one text service = (.ok (embed text), service))
    (texts : List String) : (ofOne one).Gives embed texts := by
  have inTurn (asked : List String) (service : σ) :
      inTurn one asked service = (.ok (asked.map embed), service) := by
    induction asked with
    | nil => rfl
    | cons text rest ih => simp only [Embedder.inTurn, always, ih, List.map_cons]
  exact ⟨fun text _ service => congrArg Prod.fst (always text service),
    fun asked _ service => congrArg Prod.fst (inTurn asked service)⟩

end Embedder

namespace Store

variable {s : Store} {w : World σ} {o : Options} {dimension : UInt64} {documents : List Document}

/-! ## A store made anew -/

/-- There is nothing yet where the store is to be made: that is in memory, or in a folder
without entries. -/
inductive Fresh (o : Options) (disk : Disk) : Prop
  | inMemory (ephemeral : o.path = none)
  | onDisk {path : String} {place : List String} {made : Disk} (durable : o.path = some path)
      (makes : disk.makePath path = (made, none)) (leads : made.folder path = .ok (place, []))
      (roomy : Collection.isCramped path = false)

/-- With a dimension such a store is made, and holds nothing. -/
theorem exists_create (fresh : Fresh o w.disk) (positive : dimension ≠ 0) {service : σ}
    (resolved : resolveDimension e o w.service = (.ok dimension, service)) :
    ∃ s w', create e o w = (.ok s, w') ∧ w'.service = service ∧ Steady s w'.disk ∧
      s.backend.index.vectors = [] := by
  obtain ⟨metric, asked, path?⟩ := o
  cases fresh with
  | inMemory ephemeral =>
      cases ephemeral
      refine ⟨{ metric, dimension, path := none
                backend := .ephemeral (Collection.fresh ⟨dimension, metric⟩) },
        ⟨service, w.disk⟩, ?_, rfl, .inMemory rfl, rfl⟩
      simp only [create, resolved, if_neg positive, Backend.openAt]
      rfl
  | onDisk durable makes leads roomy =>
      cases durable
      -- the store on disk is alike the one in memory, which is known to hold nothing
      obtain ⟨s, w', t, w'', created, created', twins⟩ :=
        exists_twins (o := ⟨metric, asked, none⟩) rfl makes leads roomy {} positive resolved
      refine ⟨s, w', created, ?_, twins.left, ?_⟩
      · obtain ⟨_, _, _, _, again, -, -, -, rfl⟩ := exists_of_create created
        cases again.symm.trans resolved
        rfl
      · rw [twins.alike.index]
        exact (create_agrees created').2.2 rfl

/-- The dimension is that of the embeddings. -/
theorem resolveDimension_eq {texts : List String} (gives : e.Gives embed texts)
    (probed : probe ∈ texts) (valid : (embed probe).Valid dimension)
    (asked : o.dimension = none ∨ o.dimension = some dimension) (service : σ) :
    ∃ after, resolveDimension e o service = (.ok dimension, after) := by
  rcases asked with unasked | asked
  · have answer := gives.one probe probed service
    cases answered : e.one probe service with
    | mk vector after =>
        rw [answered] at answer
        cases answer
        refine ⟨after, ?_⟩
        simp only [resolveDimension, unasked, answered, valid.length_eq, UInt64.ofNat_toNat]
  · exact ⟨service, by simp only [resolveDimension, asked]⟩

/-! ## Entering all documents -/

/-- Documents, each with the embedding of its content. -/
def withEmbeddings (embed : String → Embedding) (documents : List Document) :
    List (Document × Embedding) :=
  documents.map fun d => (d, embed d.content)

theorem zip_embeddings (embed : String → Embedding) (documents : List Document) :
    documents.zip ((documents.map Document.content).map embed) =
      withEmbeddings embed documents := by
  rw [List.map_map, withEmbeddings, List.map_prod_left_eq_zip]
  rfl

theorem valid_of_mem_withEmbeddings
    (valid : ∀ text ∈ documents.map Document.content, (embed text).Valid dimension) :
    ∀ pair ∈ withEmbeddings embed documents, pair.2.Valid dimension := by
  intro pair member
  obtain ⟨d, inside, rfl⟩ := List.mem_map.1 member
  exact valid _ (List.mem_map_of_mem inside)

/-- Where no flush fails, documents with valid embeddings are all entered. -/
theorem Steady.addDocuments_of_valid (steady : Steady s w.disk) {device : Device}
    (obliging : device.Obliging) (same : s.backend.index.dimension = s.dimension)
    {after : σ} (embedded : e.batch (documents.map Document.content) w.service =
      (.ok ((documents.map Document.content).map embed), after))
    (valid : ∀ pair ∈ withEmbeddings embed documents, pair.2.Valid s.dimension) :
    ∃ ids s' w', Store.addDocuments e device documents s w = (.ok ids, s', w') ∧
      ingest e s.dimension documents w.service = withEmbeddings embed documents := by
  have ingested : ingest e s.dimension documents w.service = withEmbeddings embed documents := by
    rw [ingest, embedded]
    dsimp only
    rw [zip_embeddings, List.takeWhile_eq_self_iff]
    exact fun pair member => decide_eq_true (Embedding.fault?_eq_none_iff.2 (valid pair member))
  by_cases empty : documents.isEmpty = true
  · exact ⟨[], s, w, by rw [Store.addDocuments, if_pos empty], ingested⟩
  · obtain ⟨s', disk, entered, -, -⟩ := steady.addDocuments obliging empty embedded
    have committed := commit_append same valid []
    rw [List.append_nil] at committed
    rw [zip_embeddings, committed] at entered
    exact ⟨_, s', _, entered, ingested⟩

/-! ## The documents and their embeddings -/

/-- The store has these documents and no others, each with the embedding of its content. -/
structure Holds (s : Store) (embed : String → Embedding) (documents : List Document) : Prop where
  document : ∀ id : DocumentId, s.documents.get? id = documents[id.toNat]?
  embedding : ∀ id : DocumentId,
    s.backend.index.get? id = documents[id.toNat]?.map fun d => embed d.content
  ordered : s.backend.index.Ordered
  metric : s.backend.index.metric = s.metric
  dimension : s.backend.index.dimension = s.dimension

/-- A store that held nothing holds what it ingested. -/
theorem Agrees.holds {start : Index} (agrees : Agrees start s (withEmbeddings embed documents))
    (ordered : start.Ordered) (nothing : start.vectors = [])
    (fits : documents.length ≤ UInt64.size) : Holds s embed documents := by
  have size : s.documents.size ≤ UInt64.size := by
    rw [agrees.size_eq, withEmbeddings, List.length_map]
    exact fits
  refine ⟨?_, ?_, ?_, ?_, ?_⟩
  · intro id
    rw [agrees.document_eq, withEmbeddings, List.getElem?_map, Option.map_map]
    exact Option.map_id'
  · intro id
    rw [agrees.embedding_eq size, withEmbeddings, List.getElem?_map, Option.map_map, Index.get?,
      nothing, Entries.get?_nil, Option.or_none]
    rfl
  · rw [agrees.index]
    exact Index.overlay_ordered ordered _
  · rw [agrees.index, Index.overlay_metric, agrees.metric]
  · rw [agrees.index, Index.overlay_dimension, agrees.dimension]

/-- **A store is made from documents,** where there is nothing yet and their embeddings are
valid, and holds them. -/
theorem exists_ofDocuments
    (gives : e.Gives embed (probe :: documents.map Document.content))
    (valid : ∀ text ∈ probe :: documents.map Document.content, (embed text).Valid dimension)
    (asked : o.dimension = none ∨ o.dimension = some dimension) (fresh : Fresh o w.disk)
    {device : Device} (obliging : device.Obliging) (fits : documents.length ≤ UInt64.size) :
    ∃ s w', ofDocuments e device documents o w = (.ok s, w') ∧ s.metric = o.metric ∧
      s.dimension = dimension ∧ Holds s embed documents := by
  obtain ⟨probed, each⟩ := List.forall_mem_cons.1 valid
  have positive : dimension ≠ 0 := by
    rintro rfl
    exact probed.positive (List.length_eq_zero_iff.1 probed.length_eq)
  obtain ⟨service, resolved⟩ := resolveDimension_eq gives List.mem_cons_self probed asked w.service
  obtain ⟨s, w₁, created, rfl, steady, nothing⟩ := exists_create fresh positive resolved
  obtain ⟨begun, ordered, -⟩ := create_agrees created
  obtain ⟨metric, rfl⟩ : s.metric = o.metric ∧ dimension = s.dimension := by
    obtain ⟨_, _, _, _, again, -, -, rfl, -⟩ := exists_of_create created
    cases again.symm.trans resolved
    exact ⟨rfl, rfl⟩
  obtain ⟨after, embedded⟩ := gives.exists_batch (List.subset_cons_self _ _) w₁.service
  obtain ⟨ids, s', w', entered, ingested⟩ := steady.addDocuments_of_valid obliging
    begun.dimension.symm embedded (valid_of_mem_withEmbeddings each)
  have agrees := begun.addDocuments e device documents w₁
  rw [ingested, List.nil_append, entered] at agrees
  refine ⟨s', w', ?_, ?_, ?_, agrees.holds ordered nothing fits⟩
  · rw [ofDocuments, ofTexts, created]
    dsimp only
    rw [addTexts_split, entered]
  · rw [agrees.metric, ← begun.metric, metric]
  · rw [agrees.dimension, ← begun.dimension]

end Store

end Retrieval
