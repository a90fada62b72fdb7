/-
# Retrieval.Proofs.Store.Restart -- what a store on disk acknowledged is there again

While a store on disk serves requests, its index is that of the records in the log
overlaid with those that are pending (`Collection.Follows`).  Documents that enter before
an embedding that is not valid, or before a flush that fails, stay pending, and the next
flush writes them out with the others.  Every request keeps this (`Store.step_kept`), as
long as the log can be cut back when a flush fails (`Store.Undoes`).

So once a request to enter texts has succeeded, nothing is pending, and a store that is
made anew at the same path finds the very same index (`Store.survives_restart`).  Pole:
`fragment_loses_restart`, where the log cannot be cut back and the store is lost.
-/
import Retrieval.Proofs.Collection.Fidelity
import Retrieval.Proofs.Store.Pending

namespace Retrieval

set_option autoImplicit false

namespace Collection

variable {path : String} {place : List String} {asked : Header} {disk after : Disk}
variable {c c' : Collection} {flushed : List Record} {device : Device}

/-! ## A collection and its log -/

/-- The index is that of the flushed records, which are in the log, and then of those
that are pending. -/
structure Follows (path : String) (place : List String) (asked : Header) (flushed : List Record)
    (c : Collection) (disk : Disk) : Prop where
  path_eq : c.path = path
  stored : StoredAt path place asked (Log.bytes flushed) disk
  index_eq : c.index = (fresh asked).overlay ((flushed ++ c.pending).map Record.entry)
  valid : ∀ r ∈ flushed ++ c.pending, r.vector.Valid asked.dimension

namespace Follows

theorem dimension_eq (follows : Follows path place asked flushed c disk) :
    c.index.dimension = asked.dimension := by
  rw [follows.index_eq]
  rfl

theorem insert (follows : Follows path place asked flushed c disk) {id : DocumentId}
    {v : Embedding} (done : c.insert id v = .ok c') : Follows path place asked flushed c' disk := by
  cases fault : v.fault? c.index.dimension with
  | some f =>
      rw [insert_of_fault id fault] at done
      cases done
  | none =>
      rw [insert_of_valid id fault] at done
      cases done
      refine ⟨follows.path_eq, follows.stored, ?_, ?_⟩
      · have whole : (flushed ++ (c.pending ++ [Record.mk id v])).map Record.entry =
            (flushed ++ c.pending).map Record.entry ++ [(id, v)] := by
          rw [← List.append_assoc, List.map_append]
          rfl
        rw [whole, Index.overlay_append, ← follows.index_eq]
      · intro r member
        rw [← List.append_assoc] at member
        rcases List.mem_append.1 member with old | new
        · exact follows.valid r old
        · rw [List.mem_singleton.1 new]
          exact Embedding.fault?_eq_none_iff.1 (follows.dimension_eq ▸ fault)

/-- A flush moves the pending records to the log, or is undone and leaves all as it was. -/
theorem flush (follows : Follows path place asked flushed c disk) {failure : Option IndexError}
    (cuts : failure ≠ none → device.cut = none)
    (done : c.flushAt device disk = (after, c', failure)) :
    ∃ flushed', Follows path place asked flushed' c' after := by
  cases failure with
  | none =>
      obtain ⟨stored, rfl⟩ := flushAt_of_ok follows.path_eq follows.stored done
      rw [← Log.bytes_append] at stored
      refine ⟨flushed ++ c.pending, follows.path_eq, stored, ?_, ?_⟩
      · rw [List.append_nil]
        exact follows.index_eq
      · rw [List.append_nil]
        exact follows.valid
  | some e =>
      obtain ⟨stored, rfl⟩ := flushAt_of_error follows.path_eq follows.stored
        (cuts (Option.some_ne_none e)) done
      exact ⟨flushed, follows.path_eq, stored, follows.index_eq, follows.valid⟩

/-- **With nothing pending, opening gives the same index again.** -/
theorem reopen (follows : Follows path place asked flushed c disk) (nothing : c.pending = []) :
    ∃ last, openAt path asked disk = (last, .ok ⟨path, c.index, []⟩) := by
  have stored := follows.stored
  have index := follows.index_eq
  have valid := follows.valid
  rw [nothing, List.append_nil] at index valid
  have sound : ∀ r ∈ flushed, r.Sound (fresh asked).dimension :=
    fun r member => Record.sound_of_valid (valid r member)
  rw [Log.bytes_eq] at stored
  obtain ⟨last, opened, -⟩ := openAt_of_whole stored (Log.replay_text sound)
  exact ⟨last, index ▸ opened⟩

end Follows

theorem ofIndexError_ofAppendError (e : AppendError) :
    StoreError.ofIndexError (ofAppendError e) = .backend (ofAppendError e) := by
  obtain ⟨site, cause⟩ := e
  cases site <;> rfl

theorem ofIndexError_of_flushAt {e : IndexError} (failed : (c.flushAt device disk).2.2 = some e) :
    StoreError.ofIndexError e = .backend e := by
  unfold flushAt at failed
  split at failed
  · cases failed
  · split at failed
    · cases failed
      rfl
    · rename_i f _
      split at failed
      · cases failed
        rfl
      · have unflushed : (c.flushIn device f).2.2 = some e := failed
        unfold flushIn at unflushed
        split at unflushed
        · cases unflushed
          exact ofIndexError_ofAppendError _
        · cases unflushed

end Collection

namespace Store

open Collection (Follows)

variable {σ : Type} {e : Embedder σ} {s s' : Store} {w w' : World σ} {o : Options}
variable {path : String} {place : List String} {asked : Header} {disk : Disk}

/-! ## A store on disk -/

/-- The store keeps a collection that follows its log. -/
structure Kept (path : String) (place : List String) (asked : Header) (s : Store) (disk : Disk) :
    Prop where
  metric_eq : s.metric = asked.metric
  dimension_eq : s.dimension = asked.dimension
  follows : ∃ c flushed, s.backend = .durable c ∧ Follows path place asked flushed c disk

/-- What making a store does when it succeeds. -/
theorem exists_of_create (created : create e o w = (.ok s, w')) :
    ∃ dimension backend service disk,
      resolveDimension e o w.service = (.ok dimension, service) ∧ dimension ≠ 0 ∧
      Backend.openAt o.path ⟨dimension, o.metric⟩ w.disk = (disk, .ok backend) ∧
      s = { metric := o.metric, dimension, path := o.path, backend } ∧ w' = ⟨service, disk⟩ := by
  unfold create at created
  cases resolved : resolveDimension e o w.service with
  | mk answer service =>
      rw [resolved] at created
      cases answer with
      | error failure => cases created
      | ok dimension =>
          dsimp only at created
          by_cases none : dimension = 0
          · rw [if_pos none] at created
            cases created
          · rw [if_neg none] at created
            cases opened : Backend.openAt o.path ⟨dimension, o.metric⟩ w.disk with
            | mk disk answer =>
                rw [opened] at created
                cases answer with
                | error failure => cases created
                | ok backend =>
                    cases created
                    exact ⟨dimension, backend, service, disk, rfl, none, opened, rfl, rfl⟩

/-- A store that was made on a fresh folder keeps an empty collection. -/
theorem create_kept {made : Disk} (asks : o.path = some path)
    (makes : w.disk.makePath path = (made, none)) (leads : made.folder path = .ok (place, []))
    (created : create e o w = (.ok s, w')) :
    Kept path place ⟨s.dimension, o.metric⟩ s w'.disk ∧ s.dimension ≠ 0 := by
  obtain ⟨dimension, backend, service, disk, -, positive, opened, rfl, rfl⟩ :=
    exists_of_create created
  rw [asks] at opened
  refine ⟨⟨rfl, rfl, ?_⟩, positive⟩
  cases collection : Collection.openAt path ⟨dimension, o.metric⟩ w.disk with
  | mk disk' answer =>
      rw [Backend.openAt, collection] at opened
      cases answer with
      | error failure => cases opened
      | ok c =>
          obtain ⟨rfl, durable⟩ := Prod.mk.inj opened
          obtain ⟨rfl, stored⟩ := Collection.openAt_fresh makes leads collection
          refine ⟨_, [], (Except.ok.inj durable).symm, rfl, stored, rfl, ?_⟩
          intro r member
          exact absurd member List.not_mem_nil

/-! ## Flushes that fail -/

/-- Where a request flushes to, the log can be cut back. -/
def Request.CutsBack : Request → Prop
  | .texts device _ _ | .documents device _ => device.cut = none
  | .search _ _ _ | .searchBatch _ _ => True

/-- The request fails at the backend, as it does when the flush fails. -/
def FailsToFlush (e : Embedder σ) (s : Store) (w : World σ) : Request → Prop
  | .texts device texts metadatas =>
      ∃ cause, (addTexts e device texts metadatas s w).1 = .error (.backend cause)
  | .documents device documents =>
      ∃ cause, (addDocuments e device documents s w).1 = .error (.backend cause)
  | .search _ _ _ | .searchBatch _ _ => False

/-- Whenever one of the requests fails to flush, the log can be cut back. -/
def Undoes (e : Embedder σ) (s : Store) (w : World σ) : List Request → Prop
  | [] => True
  | r :: rest =>
      (s.FailsToFlush e w r → r.CutsBack) ∧ (s.step e w r).1.Undoes e (s.step e w r).2 rest

theorem undoes_of_cutsBack {requests : List Request} (cuts : ∀ r ∈ requests, r.CutsBack) :
    s.Undoes e w requests := by
  induction requests generalizing s w with
  | nil => trivial
  | cons r rest ih =>
      obtain ⟨first, later⟩ := List.forall_mem_cons.1 cuts
      exact ⟨fun _ => first, ih later⟩

/-- What fails at a flush is told as a failure of the backend. -/
theorem exists_backend_of_persist {device : Device} {failure : StoreError}
    (failed : (s.persist device disk).2.2 = some failure) : ∃ cause, failure = .backend cause := by
  obtain ⟨metric, dimension, path, documents, backend⟩ := s
  cases backend with
  | ephemeral index => cases failed
  | durable c =>
      obtain ⟨cause, unflushed, rfl⟩ := Option.map_eq_some_iff.1 failed
      exact ⟨cause, Collection.ofIndexError_of_flushAt unflushed⟩

/-! ## One request -/

namespace Kept

theorem commit (kept : Kept path place asked s disk) (pairs : List (Document × Embedding)) :
    Kept path place asked (s.commit pairs).2 disk := by
  induction pairs generalizing s with
  | nil => exact kept
  | cons pair rest ih =>
      obtain ⟨d, v⟩ := pair
      obtain ⟨c, flushed, durable, follows⟩ := kept.follows
      rw [Store.commit]
      split
      · exact kept
      · dsimp only
        cases inserted : c.insert s.documents.nextId v with
        | error f =>
            rw [durable, Backend.insert, inserted]
            exact ⟨kept.metric_eq, kept.dimension_eq, c, flushed, rfl, follows⟩
        | ok c' =>
            rw [durable, Backend.insert, inserted]
            exact ih ⟨kept.metric_eq, kept.dimension_eq, c', flushed, rfl, follows.insert inserted⟩

theorem persist (kept : Kept path place asked s disk) {device : Device}
    (cuts : (s.persist device disk).2.2 ≠ none → device.cut = none) :
    Kept path place asked (s.persist device disk).2.1 (s.persist device disk).1 := by
  obtain ⟨c, flushed, durable, follows⟩ := kept.follows
  cases done : c.flushAt device disk with
  | mk after result =>
      obtain ⟨c', failure⟩ := result
      simp only [Store.persist, durable, Backend.flush, done, ne_eq,
        Option.map_eq_none_iff] at cuts ⊢
      obtain ⟨flushed', follows⟩ := follows.flush cuts done
      exact ⟨kept.metric_eq, kept.dimension_eq, c', flushed', rfl, follows⟩

theorem addDocuments (kept : Kept path place asked s w.disk) {device : Device}
    {documents : List Document} {answer : Except StoreError (List DocumentId)}
    (undone : ∀ cause, answer = .error (.backend cause) → device.cut = none)
    (done : Store.addDocuments e device documents s w = (answer, s', w')) :
    Kept path place asked s' w'.disk := by
  have entered (pairs) {outcome} {s₁ : Store} (committed : s.commit pairs = (outcome, s₁)) :
      Kept path place asked s₁ w.disk := by
    have kept := kept.commit pairs
    rwa [committed] at kept
  have written {s₁ s₂ : Store} {disk failure} (kept : Kept path place asked s₁ w.disk)
      (persisted : s₁.persist device w.disk = (disk, s₂, failure))
      (cuts : failure ≠ none → device.cut = none) : Kept path place asked s₂ disk := by
    have flushed : Kept path place asked (s₁.persist device w.disk).2.1
        (s₁.persist device w.disk).1 := kept.persist (persisted ▸ cuts)
    rwa [persisted] at flushed
  cases enters_of_addDocuments done with
  | nothing empty => exact kept
  | unembedded nonempty embedded => exact kept
  | brokenOff nonempty embedded committed => exact entered _ committed
  | unflushed nonempty embedded committed persisted =>
      obtain ⟨cause, rfl⟩ := exists_backend_of_persist (congrArg (·.2.2) persisted)
      exact written (entered _ committed) persisted fun _ => undone cause rfl
  | entered nonempty embedded committed persisted =>
      exact written (entered _ committed) persisted fun failed => absurd rfl failed

theorem addTexts (kept : Kept path place asked s w.disk) {device : Device}
    {texts : List String} {metadatas : Option (List Metadata)}
    {answer : Except StoreError (List DocumentId)}
    (undone : ∀ cause, answer = .error (.backend cause) → device.cut = none)
    (done : Store.addTexts e device texts metadatas s w = (answer, s', w')) :
    Kept path place asked s' w'.disk := by
  unfold Store.addTexts at done
  cases entered : toDocuments texts metadatas with
  | error failure =>
      rw [entered] at done
      cases done
      exact kept
  | ok documents =>
      rw [entered] at done
      exact kept.addDocuments undone done

end Kept

/-- **Every request keeps the collection at its log.** -/
theorem step_kept (kept : Kept path place asked s w.disk) (e : Embedder σ) {r : Request}
    (undone : s.FailsToFlush e w r → r.CutsBack) :
    Kept path place asked (s.step e w r).1 (s.step e w r).2.disk := by
  cases r with
  | texts device contents metadatas =>
      exact kept.addTexts (fun cause failed => undone ⟨cause, failed⟩) rfl
  | documents device documents =>
      exact kept.addDocuments (fun cause failed => undone ⟨cause, failed⟩) rfl
  | search query k filter => exact kept
  | searchBatch queries k => exact kept

theorem serve_kept (kept : Kept path place asked s w.disk) (e : Embedder σ)
    (ingested : List (Document × Embedding)) {requests : List Request}
    (undone : s.Undoes e w requests) :
    Kept path place asked (s.serve e w ingested requests).1
      (s.serve e w ingested requests).2.1.disk := by
  induction requests generalizing s w ingested with
  | nil => exact kept
  | cons r rest ih =>
      obtain ⟨first, later⟩ := undone
      exact ih (step_kept kept e first) _ later

/-! ## Making the store anew -/

/-- **A store that is made anew at the log finds the index again.** -/
theorem Kept.create {τ : Type} {e' : Embedder τ} {o' : Options} {service : τ}
    (kept : Kept path place asked s disk) (nothing : s.pending = 0)
    (positive : asked.dimension ≠ 0) (asks : o'.path = some path)
    (metric : o'.metric = asked.metric)
    (dimension : (resolveDimension e' o' service).1 = .ok asked.dimension) :
    ∃ t world, Store.create e' o' ⟨service, disk⟩ = (.ok t, world) ∧ t.documents = {} ∧
      t.metric = s.metric ∧ t.dimension = s.dimension ∧ t.backend.index = s.backend.index := by
  obtain ⟨c, flushed, durable, follows⟩ := kept.follows
  have empty : c.pending = [] := by
    rw [pending, durable] at nothing
    exact List.length_eq_zero_iff.1 nothing
  obtain ⟨last, opened⟩ := follows.reopen empty
  cases resolved : resolveDimension e' o' service with
  | mk answer service' =>
      rw [resolved] at dimension
      dsimp only at dimension
      subst dimension
      have header : Header.mk asked.dimension o'.metric = asked := by rw [metric]
      refine ⟨⟨o'.metric, asked.dimension, o'.path, {}, .durable ⟨path, c.index, []⟩⟩,
        ⟨service', last⟩, ?_, rfl, metric.trans kept.metric_eq.symm, kept.dimension_eq.symm, ?_⟩
      · simp only [Store.create, resolved, if_neg positive, asks, header, Backend.openAt, opened]
        rfl
      · rw [durable]
        rfl

/-- The hits of a report do not depend on the documents. -/
theorem nearest_hits {t : Store} (dimension : t.dimension = s.dimension)
    (index : t.backend.index = s.backend.index) (query : Embedding) (k : Nat) :
    (t.nearest query k none).map Report.hits = (s.nearest query k none).map Report.hits := by
  rw [nearest, nearest, dimension, index]
  cases query.fault? s.dimension with
  | some f => rfl
  | none =>
      have all : t.candidate none = s.candidate none := rfl
      dsimp only
      rw [all]
      cases s.backend.index.search query k (s.candidate none) <;> rfl

theorem search_hits {t : Store} (dimension : t.dimension = s.dimension)
    (index : t.backend.index = s.backend.index) (e : Embedder σ) (query : String) (k : Nat)
    (service : σ) :
    (t.search e query k none service).1.map Report.hits =
      (s.search e query k none service).1.map Report.hits := by
  unfold search
  split
  · rfl
  · cases e.one query service with
    | mk answer service =>
        cases answer with
        | error _ => rfl
        | ok v => exact nearest_hits dimension index v k

/-- **What a store on disk acknowledged survives a restart.**  The store was made on a
fresh folder, and any requests were served, also such that failed within a batch or at the
flush, if the log could be cut back then.  After a request to enter texts that succeeds, a
store that is made anew with the same path, dimension and metric has no documents, holds as
many embeddings, and gives the same hits for every query. -/
theorem survives_restart {made : Disk} (asks : o.path = some path)
    (makes : w.disk.makePath path = (made, none)) (leads : made.folder path = .ok (place, []))
    {s₀ : Store} {w₀ : World σ} (created : create e o w = (.ok s₀, w₀)) {requests : List Request}
    (undone : s₀.Undoes e w₀ requests) {ingested : List (Document × Embedding)}
    (served : s₀.serve e w₀ [] requests = (s, w', ingested))
    {device : Device} {texts : List String} {metadatas : Option (List Metadata)}
    {ids : List DocumentId} {after : World σ} (nonempty : texts ≠ [])
    (added : addTexts e device texts metadatas s w' = (.ok ids, s', after)) :
    ∀ {τ : Type} (e' : Embedder τ) (o' : Options) (service : τ),
      o'.path = some path → o'.metric = s'.metric →
      (resolveDimension e' o' service).1 = .ok s'.dimension →
      ∃ t world, create e' o' ⟨service, after.disk⟩ = (.ok t, world) ∧
        t.size = 0 ∧ t.backendSize = s'.backendSize ∧
        (∀ v k, (t.nearest v k none).map Report.hits = (s'.nearest v k none).map Report.hits) ∧
        ∀ query k service, (t.search e' query k none service).1.map Report.hits =
          (s'.search e' query k none service).1.map Report.hits := by
  obtain ⟨begun, positive⟩ := create_kept asks makes leads created
  have kept := serve_kept begun e [] undone
  rw [served] at kept
  have kept := kept.addTexts (fun _ failed => by cases failed) added
  have nothing : s'.pending = 0 := by
    have count := (pending_of_added e device s w').2 texts metadatas ids s' after added
    rwa [if_neg fun empty => nonempty (List.isEmpty_iff.1 empty)] at count
  intro τ e' o' service path metric dimension
  rw [kept.dimension_eq] at dimension
  obtain ⟨t, world, reopened, documents, -, same, index⟩ :=
    kept.create nothing positive path (metric.trans kept.metric_eq) dimension
  refine ⟨t, world, reopened, ?_, ?_, nearest_hits same index, search_hits same index e'⟩
  · rw [size, documents]
    rfl
  · rw [backendSize, backendSize, index]

/-! ### A failed batch, a failed flush, and a restart -/

/-- A batch that fails at its second text, and one that fails at the flush. -/
def troubledRequests : List Request :=
  [.texts .reliable ["north", "south"] none, .texts (.limited 0) ["east"] none,
    .search "east" 1 none]

/-- What is answered to one more text after the trouble, and the store then. -/
def acknowledged (s : Store) (w : World Unit) :
    Except StoreError (List DocumentId) × Store × World Unit :=
  addTexts sampleEmbedder .reliable ["north"] none
    (s.serve sampleEmbedder w [] troubledRequests).1
    (s.serve sampleEmbedder w [] troubledRequests).2.1

theorem survives_restart_sample : ∃ s₀ w₀ ids s after t world,
    create sampleEmbedder durableOptions ⟨(), {}⟩ = (.ok s₀, w₀) ∧
    acknowledged s₀ w₀ = (.ok ids, s, after) ∧
    create sampleEmbedder durableOptions ⟨(), after.disk⟩ = (.ok t, world) ∧
    t.size = 0 ∧ t.backendSize = 3 ∧
    (t.nearest [.ofInt 1, .ofInt 0] 3 none).map Report.hits =
      (s.nearest [.ofInt 1, .ofInt 0] 3 none).map Report.hits := by
  have observed : ofFresh (fun s w => ((acknowledged s w).1.toOption.isSome,
      (acknowledged s w).2.1.backendSize, (acknowledged s w).2.1.dimension,
      (acknowledged s w).2.1.metric)) = some (true, 3, 2, .euclidean) := by
    decide +kernel
  obtain ⟨s₀, w₀, created, seen⟩ := exists_fresh observed
  have cuts : ∀ r ∈ troubledRequests, r.CutsBack := by
    simp [troubledRequests, Request.CutsBack, Device.reliable, Device.limited]
  cases added : acknowledged s₀ w₀ with
  | mk answer rest =>
      obtain ⟨s, after⟩ := rest
      rw [added] at seen
      obtain ⟨succeeds, seen⟩ := Prod.mk.inj seen
      obtain ⟨size, seen⟩ := Prod.mk.inj seen
      obtain ⟨dimension, metric⟩ := Prod.mk.inj seen
      dsimp only at size dimension metric
      cases answer with
      | error failure => cases succeeds
      | ok ids =>
          have asked : (resolveDimension sampleEmbedder durableOptions ()).1 =
              .ok s.dimension := by
            rw [dimension]
            rfl
          obtain ⟨t, world, reopened, noDocuments, held, hits, -⟩ :=
            survives_restart (o := durableOptions) (w := ⟨(), {}⟩) rfl rfl rfl created
              (undoes_of_cutsBack cuts) rfl (List.cons_ne_nil "north" []) added sampleEmbedder
              durableOptions () rfl metric.symm asked
          exact ⟨s₀, w₀, ids, s, after, t, world, created, added, reopened, noDocuments,
            held.trans size, hits _ _⟩

/-- **Behind a fragment that stays, what is acknowledged is lost.**  A flush stops inside of a
line that cannot be cut off again; the second text is entered behind it, and the store cannot
be made anew. -/
theorem fragment_loses_restart : ∃ s₀ w₀ s₁ w₁ s₂ w₂ after,
    create sampleEmbedder durableOptions ⟨(), {}⟩ = (.ok s₀, w₀) ∧
    addTexts sampleEmbedder (.irrevocable 10) ["north"] none s₀ w₀ =
      (.error (.backend (.file (.other "Input/output error (os error 5)"))), s₁, w₁) ∧
    addTexts sampleEmbedder .reliable ["east"] none s₁ w₁ = (.ok [1], s₂, w₂) ∧
    create sampleEmbedder durableOptions w₂ =
      (.error (.backend (.corrupt "c/vectors.jsonl line 1")), after) :=
  ⟨_, _, _, _, _, _, _, rfl, rfl, rfl, rfl⟩

end Store

end Retrieval
