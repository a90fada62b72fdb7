/-
# Retrieval.Proofs.Store.Agreement -- documents and embeddings agree

A store takes requests to enter documents and to search (`Store.Request`).  Beside it
goes the list of what was ingested: of each batch, the documents with the embeddings
they were given, up to the first that is not valid (`Store.ingest`).  Nothing else is
looked at, neither the store nor whether the flush succeeded.

The invariant is `Store.Agrees`: the table is that of the ingested documents, and the
index is the one the store was made with, overlaid with their embeddings under their
places (`numbered`).  So an old embedding of an earlier instance never shows through
under the number of a document (`Index.get?_overlay_numbered`).
-/
import Retrieval.Store.Ingest
import Retrieval.Store.Search
import Retrieval.Proofs.Store.Backend

namespace Retrieval

set_option autoImplicit false

/-- The embeddings of documents under their places. -/
def numbered (ingested : List (Document × Embedding)) : List (DocumentId × Embedding) :=
  ingested.mapIdx fun place pair => (UInt64.ofNat place, pair.2)

theorem numbered_append_singleton (ingested : List (Document × Embedding))
    (pair : Document × Embedding) :
    numbered (ingested ++ [pair]) =
      numbered ingested ++ [(UInt64.ofNat ingested.length, pair.2)] :=
  List.mapIdx_concat

theorem DocumentId.eq_ofNat_iff {n : Nat} (small : n < UInt64.size) (id : DocumentId) :
    id = UInt64.ofNat n ↔ id.toNat = n := by
  rw [← UInt64.toNat_inj, UInt64.toNat_ofNat_of_lt' small]

/-- The records of embeddings under the numbers from one on. -/
def recordsFrom (first : Nat) (vectors : List Embedding) : List Record :=
  vectors.mapIdx fun place v => ⟨UInt64.ofNat (first + place), v⟩

theorem recordsFrom_cons (first : Nat) (v : Embedding) (vectors : List Embedding) :
    recordsFrom first (v :: vectors) =
      ⟨UInt64.ofNat first, v⟩ :: recordsFrom (first + 1) vectors := by
  simp [recordsFrom, List.mapIdx_cons, Nat.add_comm, Nat.add_left_comm]

theorem recordsFrom_append (first : Nat) (vectors more : List Embedding) :
    recordsFrom first (vectors ++ more) =
      recordsFrom first vectors ++ recordsFrom (first + vectors.length) more := by
  have place (i : Nat) : first + (i + vectors.length) = first + vectors.length + i := by omega
  simp only [recordsFrom, List.mapIdx_append, place]

/-- Under each of the numbers is the embedding in its place, and nothing under any other. -/
theorem get?_recordsFrom {first : Nat} {vectors : List Embedding}
    (fits : first + vectors.length ≤ UInt64.size) (id : DocumentId) :
    Entries.get? id ((recordsFrom first vectors).map Record.entry).reverse =
      if first ≤ id.toNat then vectors[id.toNat - first]? else none := by
  induction vectors generalizing first with
  | nil => simp [recordsFrom]
  | cons v vectors ih =>
      rw [List.length_cons] at fits
      rw [recordsFrom_cons, List.map_cons, List.reverse_cons, Entries.get?_append, ih (by omega),
        Record.entry, Entries.get?_cons]
      simp only [DocumentId.eq_ofNat_iff (show first < UInt64.size by omega)]
      rcases Nat.lt_trichotomy id.toNat first with below | here | above
      · rw [if_neg (by omega), if_neg (by omega), if_neg (by omega)]
        rfl
      · rw [if_neg (by omega), if_pos here, if_pos (by omega), here, Nat.sub_self]
        rfl
      · obtain ⟨more, same⟩ := Nat.exists_eq_add_of_lt above
        have later : id.toNat - first = more + 1 := by omega
        have place : id.toNat - (first + 1) = more := by omega
        rw [if_pos (Nat.succ_le_of_lt above), if_neg (Nat.ne_of_gt above),
          if_pos (Nat.le_of_lt above), later, place, List.getElem?_cons_succ]
        exact Option.or_none

theorem numbered_eq (ingested : List (Document × Embedding)) :
    numbered ingested = (recordsFrom 0 (ingested.map Prod.snd)).map Record.entry := by
  apply List.ext_getElem?
  intro place
  cases found : ingested[place]? <;> simp [numbered, recordsFrom, Record.entry, found]

/-- **Under the place of a document is its own embedding,** and under every other
number what was there before. -/
theorem Index.get?_overlay_numbered {index : Index} {ingested : List (Document × Embedding)}
    (fits : ingested.length ≤ UInt64.size) (id : DocumentId) :
    (index.overlay (numbered ingested)).get? id =
      (ingested[id.toNat]?.map Prod.snd).or (index.get? id) := by
  rw [get?_overlay, numbered_eq, get?_recordsFrom (by simpa using fits)]
  simp

namespace Store

variable {σ : Type} {e : Embedder σ} {start : Index} {s : Store} {w : World σ}
variable {ingested : List (Document × Embedding)}

/-! ## Requests and what they ingest -/

/-- What a batch adds: its documents with the embeddings that the embedder gives for
their texts, up to the first that is not valid. -/
def ingest (e : Embedder σ) (dimension : UInt64) (documents : List Document) (service : σ) :
    List (Document × Embedding) :=
  match (e.batch (documents.map Document.content) service).1 with
  | .error _ => []
  | .ok vectors => (documents.zip vectors).takeWhile fun pair => pair.2.fault? dimension = none

/-- What a store is asked to do; what is entered is flushed onto a device. -/
inductive Request where
  | texts (device : Device) (texts : List String) (metadatas : Option (List Metadata))
  | documents (device : Device) (documents : List Document)
  | search (query : String) (k : Nat) (filter : Option Filter)
  | searchBatch (queries : List String) (k : Nat)

/-- The store and its world after a request, whatever the answer. -/
def step (e : Embedder σ) (s : Store) (w : World σ) : Request → Store × World σ
  | .texts device texts metadatas => (addTexts e device texts metadatas s w).2
  | .documents device documents => (addDocuments e device documents s w).2
  | .search query k filter => (s, { w with service := (s.search e query k filter w.service).2 })
  | .searchBatch queries k => (s, { w with service := (s.searchBatch e queries k w.service).2 })

/-- What a request adds to what was ingested. -/
def Request.ingests (e : Embedder σ) (dimension : UInt64) (service : σ) :
    Request → List (Document × Embedding)
  | .texts _ contents metadatas =>
      match toDocuments contents metadatas with
      | .error _ => []
      | .ok entered => ingest e dimension entered service
  | .documents _ entered => ingest e dimension entered service
  | .search _ _ _ | .searchBatch _ _ => []

/-- Serve requests in a row, and keep what was ingested. -/
def serve (e : Embedder σ) (s : Store) (w : World σ) (ingested : List (Document × Embedding)) :
    List Request → Store × World σ × List (Document × Embedding)
  | [] => (s, w, ingested)
  | r :: rest =>
      let (s', w') := s.step e w r
      s'.serve e w' (ingested ++ r.ingests e s.dimension w.service) rest

/-! ## The invariant -/

/-- The table is that of the ingested documents, and the index is the one from the
start, overlaid with their embeddings. -/
structure Agrees (start : Index) (s : Store) (ingested : List (Document × Embedding)) :
    Prop where
  documents : s.documents.entries.toList = ingested.map Prod.fst
  index : s.backend.index = start.overlay (numbered ingested)
  metric : s.metric = start.metric
  dimension : s.dimension = start.dimension

namespace Agrees

theorem size_eq (agrees : Agrees start s ingested) : s.documents.size = ingested.length := by
  rw [Documents.size, ← Array.length_toList, agrees.documents, List.length_map]

/-- One document and its valid embedding are entered, and the backend does not refuse. -/
theorem enter (agrees : Agrees start s ingested) (d : Document) {v : Embedding}
    (valid : v.fault? s.dimension = none) :
    ∃ backend, s.backend.insert s.documents.nextId v = .ok backend ∧
      Agrees start { s with documents := s.documents.insert d, backend }
        (ingested ++ [(d, v)]) := by
  have accepted : v.fault? s.backend.index.dimension = none := by
    rw [agrees.index, Index.overlay_dimension, ← agrees.dimension, valid]
  refine ⟨_, Backend.insert_of_valid s.documents.nextId accepted, ?_, ?_, agrees.metric,
    agrees.dimension⟩
  · show (s.documents.entries.push d).toList = _
    rw [Array.toList_push, agrees.documents, List.map_append]
    rfl
  · rw [numbered_append_singleton, Index.overlay_append, ← agrees.index, Backend.gain_index,
      Documents.nextId, agrees.size_eq]
    rfl

/-- **Documents are entered up to the first embedding that is not valid.** -/
theorem commit (agrees : Agrees start s ingested) (pairs : List (Document × Embedding)) :
    Agrees start (s.commit pairs).2
      (ingested ++ pairs.takeWhile fun pair => pair.2.fault? s.dimension = none) := by
  induction pairs generalizing s ingested with
  | nil =>
      rw [List.takeWhile_nil, List.append_nil]
      exact agrees
  | cons pair rest ih =>
      obtain ⟨d, v⟩ := pair
      cases fault : v.fault? s.dimension with
      | some f =>
          simp only [Store.commit, fault, List.takeWhile_cons, reduceCtorEq, decide_false,
            Bool.false_eq_true, if_false, List.append_nil]
          exact agrees
      | none =>
          obtain ⟨backend, inserted, entered⟩ := agrees.enter d fault
          have later := ih entered
          rw [List.append_assoc] at later
          simp only [Store.commit, fault, inserted, List.takeWhile_cons, decide_true, if_true]
          exact later

theorem persist (agrees : Agrees start s ingested) (device : Device) (disk : Disk) :
    Agrees start (s.persist device disk).2.1 ingested :=
  ⟨agrees.documents, (Backend.flush_index s.backend device disk).trans agrees.index,
    agrees.metric, agrees.dimension⟩

theorem addDocuments (agrees : Agrees start s ingested) (e : Embedder σ) (device : Device)
    (documents : List Document) (w : World σ) :
    Agrees start (Store.addDocuments e device documents s w).2.1
      (ingested ++ ingest e s.dimension documents w.service) := by
  have nothing : ingested ++ [] = ingested := List.append_nil _
  unfold Store.addDocuments ingest
  split
  · rename_i empty
    rw [List.isEmpty_iff.1 empty]
    cases (e.batch ([].map Document.content) w.service).1 with
    | error _ => exact nothing.symm ▸ agrees
    | ok vectors => exact nothing.symm ▸ agrees
  · cases embedded : e.batch (documents.map Document.content) w.service with
    | mk answer service =>
        cases answer with
        | error _ => exact nothing.symm ▸ agrees
        | ok vectors =>
            have entered := agrees.commit (documents.zip vectors)
            dsimp only
            cases committed : s.commit (documents.zip vectors) with
            | mk outcome after =>
                rw [committed] at entered
                cases outcome with
                | error _ => exact entered
                | ok ids =>
                    have persisted := entered.persist device w.disk
                    dsimp only
                    cases brought : after.persist device w.disk with
                    | mk disk result =>
                        obtain ⟨last, failure⟩ := result
                        rw [brought] at persisted
                        cases failure <;> exact persisted

end Agrees

/-! ## One request, and requests in a row -/

/-- **Every request keeps the store in agreement.** -/
theorem step_agrees (agrees : Agrees start s ingested) (e : Embedder σ) (w : World σ)
    (r : Request) :
    Agrees start (s.step e w r).1 (ingested ++ r.ingests e s.dimension w.service) := by
  have nothing : ingested ++ [] = ingested := List.append_nil _
  cases r with
  | texts device contents metadatas =>
      unfold step addTexts Request.ingests
      dsimp only
      cases toDocuments contents metadatas with
      | error _ => exact nothing.symm ▸ agrees
      | ok documents => exact agrees.addDocuments e device documents w
  | documents device documents => exact agrees.addDocuments e device documents w
  | search query k filter => exact nothing.symm ▸ agrees
  | searchBatch queries k => exact nothing.symm ▸ agrees

theorem serve_agrees (agrees : Agrees start s ingested) (e : Embedder σ) (w : World σ)
    (requests : List Request) :
    Agrees start (s.serve e w ingested requests).1 (s.serve e w ingested requests).2.2 := by
  induction requests generalizing s w ingested with
  | nil => exact agrees
  | cons r rest ih => exact ih (step_agrees agrees e w r) _

end Store

end Retrieval
