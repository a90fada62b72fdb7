/-
# Retrieval.Proofs.Store.Failure -- what a request that fails has done

A request to enter texts fails in five ways, and each of them leaves the store in a state
that is known exactly (`Store.addTexts_fails_exactly`).  When the number of metadata is
wrong, the embedder fails or it gives the wrong number of embeddings, nothing has changed.
When an embedding is not valid, the documents before it were entered and nothing else
(`Store.Gained`), and the disk is as it was.  When the flush fails, all of them were
entered and are pending, and the log holds what it held, if it can be cut back.  Pole:
`failedFlush_changes_log`, where it cannot be; and where there was no log, an empty one is
left.

It is so in every state that a store comes into (`Store.Reached`), because its index has
the dimension that it checks (`Store.Reached.dimension_eq`): what passes the check is
never refused, and no document is without its embedding.
-/
import Retrieval.Proofs.Collection.Retry
import Retrieval.Proofs.Store.Numbering

namespace Retrieval

set_option autoImplicit false

namespace Store

variable {σ : Type} {e : Embedder σ} {device : Device} {s : Store} {w : World σ}
variable {taken rest : List (Document × Embedding)}

/-! ## The states of a store -/

/-- A store was made, and then asked anything, with any embedder and in any world each
time. -/
inductive Reached : Store → Prop
  | made {σ : Type} {e : Embedder σ} {o : Options} {w w' : World σ} {s : Store}
      (created : create e o w = (.ok s, w')) : Reached s
  | served {σ : Type} {s : Store} (earlier : Reached s) (e : Embedder σ) (w : World σ)
      (r : Request) : Reached (s.step e w r).1

theorem Reached.agrees (reached : Reached s) :
    ∃ start ingested, start.Ordered ∧ Agrees start s ingested := by
  induction reached with
  | made created =>
      obtain ⟨agrees, ordered, -⟩ := create_agrees created
      exact ⟨_, _, ordered, agrees⟩
  | served earlier e w r ih =>
      obtain ⟨start, ingested, ordered, agrees⟩ := ih
      exact ⟨start, _, ordered, step_agrees agrees e w r⟩

/-- **The index has the dimension that the store checks.** -/
theorem Reached.dimension_eq (reached : Reached s) : s.backend.index.dimension = s.dimension := by
  obtain ⟨start, ingested, -, agrees⟩ := reached.agrees
  rw [agrees.index, agrees.dimension]
  rfl

theorem Reached.ordered (reached : Reached s) : s.backend.index.Ordered := by
  obtain ⟨start, ingested, ordered, agrees⟩ := reached.agrees
  rw [agrees.index]
  exact Index.overlay_ordered ordered _

/-! ## Entering valid embeddings -/

/-- The store with documents and their embeddings put in under the next numbers. -/
def gain (s : Store) (pairs : List (Document × Embedding)) : Store :=
  { s with
    documents := ⟨s.documents.entries ++ (pairs.map Prod.fst).toArray⟩
    backend := s.backend.gain (recordsFrom s.size (pairs.map Prod.snd)) }

theorem gain_nil (s : Store) : s.gain [] = s := by
  simp [gain, recordsFrom, Backend.gain_nil]

theorem size_gain (s : Store) (pairs : List (Document × Embedding)) :
    (s.gain pairs).size = s.size + pairs.length := by
  simp [gain, size, Documents.size]

theorem gain_gain (s : Store) (first later : List (Document × Embedding)) :
    (s.gain first).gain later = s.gain (first ++ later) := by
  have records : recordsFrom s.size (first.map Prod.snd) ++
      recordsFrom (s.gain first).size (later.map Prod.snd) =
        recordsFrom s.size ((first ++ later).map Prod.snd) := by
    rw [size_gain, List.map_append, recordsFrom_append, List.length_map]
  simp only [gain] at records ⊢
  rw [Backend.gain_gain, records, List.map_append]
  simp

/-- A document with a valid embedding is entered. -/
theorem commit_cons (dimension : s.backend.index.dimension = s.dimension) {v : Embedding}
    (valid : v.Valid s.dimension) (d : Document) (rest : List (Document × Embedding)) :
    s.commit ((d, v) :: rest) =
      (((s.gain [(d, v)]).commit rest).1.map (s.documents.nextId :: ·),
        ((s.gain [(d, v)]).commit rest).2) := by
  have passes : v.fault? s.dimension = none := Embedding.fault?_eq_none_iff.2 valid
  have inserted := Backend.insert_of_valid s.documents.nextId (dimension.symm ▸ passes)
  have entered : s.gain [(d, v)] = { s with
      documents := s.documents.insert d
      backend := s.backend.gain [⟨s.documents.nextId, v⟩] } := by
    simp [gain, recordsFrom, Documents.insert, Documents.nextId, size]
  simp only [commit, passes, inserted, entered]

/-- **Documents with valid embeddings are all entered,** and then comes what is behind them. -/
theorem commit_append (dimension : s.backend.index.dimension = s.dimension)
    (valid : ∀ pair ∈ taken, pair.2.Valid s.dimension) (rest : List (Document × Embedding)) :
    s.commit (taken ++ rest) =
      (((s.gain taken).commit rest).1.map (numbersFrom s.size taken.length ++ ·),
        ((s.gain taken).commit rest).2) := by
  induction taken generalizing s with
  | nil =>
      rw [gain_nil, List.nil_append]
      cases committed : s.commit rest with
      | mk outcome after => cases outcome <;> rfl
  | cons pair taken ih =>
      obtain ⟨d, v⟩ := pair
      obtain ⟨first, later⟩ := List.forall_mem_cons.1 valid
      have again : (s.gain [(d, v)]).backend.index.dimension = (s.gain [(d, v)]).dimension := by
        simp only [gain, Backend.gain_index]
        exact dimension
      have numbers : s.documents.nextId :: numbersFrom (s.gain [(d, v)]).size taken.length =
          numbersFrom s.size (taken.length + 1) := by
        rw [size_gain, numbersFrom_succ]
        rfl
      rw [List.cons_append, commit_cons dimension first, ih again later, gain_gain,
        List.singleton_append, List.length_cons, ← numbers]
      cases ((s.gain ((d, v) :: taken)).commit rest).1 <;> rfl

/-! ## What a store has gained -/

/-- The first `count` documents were put behind those that were there, with their
embeddings under the same numbers; on disk these are pending, behind what was.  Nothing
else has changed. -/
structure Gained (s : Store) (given : Nat → Option Document) (vectors : List Embedding)
    (count : Nat) (s' : Store) : Prop where
  size_eq : s'.size = s.size + count
  document : ∀ i < count, s'.documents.get? (UInt64.ofNat (s.size + i)) = given i
  embedding : ∀ i < count, s'.backend.index.get? (UInt64.ofNat (s.size + i)) = vectors[i]?
  others : ∀ id : DocumentId, id.toNat < s.size ∨ s.size + count ≤ id.toNat →
    s'.documents.get? id = s.documents.get? id ∧
      s'.backend.index.get? id = s.backend.index.get? id
  queue_eq : s'.backend.queue = s.backend.queue ++
    if s.backend.isDurable then recordsFrom s.size (vectors.take count) else []
  path_eq : s'.backend.path? = s.backend.path?
  settings : s'.metric = s.metric ∧ s'.dimension = s.dimension ∧ s'.path = s.path
  index_settings : s'.backend.index.metric = s.backend.index.metric ∧
    s'.backend.index.dimension = s.backend.index.dimension

/-- The first of the documents and embeddings that a store is given are what it gains. -/
theorem gained_gain {documents : List Document} {vectors : List Embedding}
    {given : Nat → Option Document} {count : Nat} (lengths : vectors.length = documents.length)
    (isGiven : ∀ i, documents[i]? = given i) (within : count ≤ documents.length)
    (fits : s.size + count ≤ UInt64.size) :
    Gained s given vectors count (s.gain ((documents.zip vectors).take count)) := by
  have size : ((documents.zip vectors).take count).length = count := by simp; omega
  have firsts : ((documents.zip vectors).take count).map Prod.fst = documents.take count := by
    rw [List.map_take, List.map_fst_zip (Nat.le_of_eq lengths.symm)]
  have seconds : ((documents.zip vectors).take count).map Prod.snd = vectors.take count := by
    rw [List.map_take, List.map_snd_zip (Nat.le_of_eq lengths)]
  have document (id : DocumentId) :
      (s.gain ((documents.zip vectors).take count)).documents.get? id =
        if id.toNat < s.size then s.documents.get? id
        else (documents.take count)[id.toNat - s.size]? := by
    rw [gain, firsts, Documents.get?, Array.getElem?_append]
    by_cases old : id.toNat < s.size
    · rw [if_pos old]
      exact if_pos old
    · rw [if_neg old]
      exact (if_neg old).trans List.getElem?_toArray
  have embedding (id : DocumentId) :
      (s.gain ((documents.zip vectors).take count)).backend.index.get? id =
        (if s.size ≤ id.toNat then (vectors.take count)[id.toNat - s.size]? else none).or
          (s.backend.index.get? id) := by
    rw [gain, Backend.gain_index, seconds, Index.get?_overlay,
      get?_recordsFrom (by rw [List.length_take]; omega)]
  refine ⟨?_, ?_, ?_, ?_, ?_, Backend.gain_path? _ _, ⟨rfl, rfl, rfl⟩, ?_⟩
  · rw [size_gain, size]
  · intro i inside
    have place : (UInt64.ofNat (s.size + i)).toNat = s.size + i :=
      UInt64.toNat_ofNat_of_lt' (by omega)
    rw [document, place, if_neg (by omega), Nat.add_sub_cancel_left,
      List.getElem?_take_of_lt inside, isGiven]
  · intro i inside
    have place : (UInt64.ofNat (s.size + i)).toNat = s.size + i :=
      UInt64.toNat_ofNat_of_lt' (by omega)
    have there : i < vectors.length := by omega
    rw [embedding, place, if_pos (Nat.le_add_right _ _), Nat.add_sub_cancel_left,
      List.getElem?_take_of_lt inside, List.getElem?_eq_getElem there]
    rfl
  · intro id outside
    rw [document, embedding]
    rcases outside with below | above
    · rw [if_pos below, if_neg (Nat.not_le.2 below)]
      exact ⟨rfl, rfl⟩
    · have past : ¬ id.toNat < s.size := by omega
      have noDocument : s.documents.get? id = none :=
        Array.getElem?_eq_none (Nat.not_lt.1 past)
      rw [if_neg past, if_pos (Nat.not_lt.1 past), noDocument,
        List.getElem?_eq_none (by rw [List.length_take]; omega),
        List.getElem?_eq_none (by rw [List.length_take]; omega)]
      exact ⟨rfl, rfl⟩
  · rw [gain, Backend.gain_queue, seconds]
  · rw [gain, Backend.gain_index]
    exact ⟨rfl, rfl⟩

/-! ## How a request fails -/

variable {texts : List String} {metadatas : Option (List Metadata)} {documents : List Document}
variable {vectors : List Embedding} {service : σ}

/-- Texts with as many metadata as there are texts make documents. -/
theorem exists_toDocuments
    (count : ∀ entries, metadatas = some entries → entries.length = texts.length)
    (device : Device) :
    ∃ documents, toDocuments texts metadatas = .ok documents ∧
      documents.map Document.content = texts ∧
      ∀ i, documents[i]? = Call.given (.request (.texts device texts metadatas)) i := by
  obtain ⟨documents, made⟩ : ∃ documents, toDocuments texts metadatas = .ok documents := by
    cases metadatas with
    | none => exact ⟨_, rfl⟩
    | some entries => exact ⟨_, by rw [toDocuments, if_pos (count entries rfl)]⟩
  obtain ⟨-, given⟩ := toDocuments_given made device
  refine ⟨documents, made, ?_, given⟩
  apply List.ext_getElem?
  intro i
  rw [List.getElem?_map, given]
  cases found : texts[i]? <;> simp [Call.given, found]

theorem addDocuments_of_unembedded {failure : EmbedderError} (nonempty : documents ≠ [])
    (embedded : e.batch (documents.map Document.content) w.service = (.error failure, service)) :
    addDocuments e device documents s w =
      (.error (.embedding failure), s, { w with service }) := by
  rw [addDocuments, if_neg (mt List.isEmpty_iff.1 nonempty), embedded]

/-- **At the first embedding that is not valid the request breaks off,** after all documents
before it were entered. -/
theorem addDocuments_of_invalid (dimension : s.backend.index.dimension = s.dimension)
    (nonempty : documents ≠ [])
    (embedded : e.batch (documents.map Document.content) w.service = (.ok vectors, service))
    {i : Nat} {v : Embedding} {fault : Embedding.Fault} (here : vectors[i]? = some v)
    (found : v.fault? s.dimension = some fault)
    (valid : ∀ u ∈ vectors.take i, u.Valid s.dimension) :
    addDocuments e device documents s w =
      (.error (.ofFault fault), s.gain ((documents.zip vectors).take i), { w with service }) := by
  obtain ⟨inside, rfl⟩ := List.getElem?_eq_some_iff.1 here
  have lengths : vectors.length = documents.length := by
    rw [Embedder.length_batch embedded, List.length_map]
  have split : documents.zip vectors = (documents.zip vectors).take i ++
      (documents[i], vectors[i]) :: (documents.zip vectors).drop (i + 1) := by
    have place : i < (documents.zip vectors).length := by simp; omega
    rw [← List.getElem_zip (h := place), ← List.drop_eq_getElem_cons place, List.take_append_drop]
  have passing : ∀ pair ∈ (documents.zip vectors).take i, pair.2.Valid s.dimension := by
    intro pair member
    rw [List.zip_eq_zipWith, List.take_zipWith, ← List.zip_eq_zipWith] at member
    exact valid _ (List.of_mem_zip member).2
  have breaksOff : (s.gain ((documents.zip vectors).take i)).commit
      ((documents[i], vectors[i]) :: (documents.zip vectors).drop (i + 1)) =
        (.error (.ofFault fault), s.gain ((documents.zip vectors).take i)) := by
    rw [commit, show (s.gain _).dimension = s.dimension from rfl, found]
  have committed := commit_append dimension passing
    ((documents[i], vectors[i]) :: (documents.zip vectors).drop (i + 1))
  rw [← split, breaksOff] at committed
  rw [addDocuments, if_neg (mt List.isEmpty_iff.1 nonempty), embedded]
  dsimp only
  rw [committed]
  rfl

/-- A flush that fails leaves the store as it is, and the log if it can be cut back. -/
theorem persist_of_failure {disk : Disk} {s' : Store} {failure : StoreError}
    (done : s.persist device w.disk = (disk, s', some failure)) :
    s' = s ∧ ∃ c cause, s.backend = .durable c ∧
      c.flushAt device w.disk = (disk, c, some cause) ∧ failure = .ofIndexError cause ∧
      (device.cut = none → Collection.logged c.path disk = Collection.logged c.path w.disk) ∧
      Collection.logged c.path w.disk <+: Collection.logged c.path disk := by
  obtain ⟨metric, dimension, path, table, backend⟩ := s
  cases backend with
  | ephemeral index => cases done
  | durable c =>
      have settled := Collection.flushAt_settles c device w.disk
      cases flushed : c.flushAt device w.disk with
      | mk reached result =>
          obtain ⟨c', outcome⟩ := result
          rw [persist, Backend.flush, flushed] at done
          rw [flushed] at settled
          cases settled with
          | written => cases done
          | undone cause kept same =>
              cases done
              exact ⟨rfl, _, cause, rfl, flushed, rfl, same, kept⟩

/-- **When all embeddings are valid, only the flush can fail.** -/
theorem addDocuments_of_valid (dimension : s.backend.index.dimension = s.dimension)
    (embedded : e.batch (documents.map Document.content) w.service = (.ok vectors, service))
    (valid : ∀ v ∈ vectors, v.Valid s.dimension) {failure : StoreError} {s' : Store} {w' : World σ}
    (failed : addDocuments e device documents s w = (.error failure, s', w')) :
    s' = s.gain (documents.zip vectors) ∧ w'.service = service ∧
      ∃ c cause, s'.backend = .durable c ∧
        c.flushAt device w.disk = (w'.disk, c, some cause) ∧ failure = .ofIndexError cause ∧
        (device.cut = none →
          Collection.logged c.path w'.disk = Collection.logged c.path w.disk) ∧
        Collection.logged c.path w.disk <+: Collection.logged c.path w'.disk := by
  have passing : ∀ pair ∈ documents.zip vectors, pair.2.Valid s.dimension :=
    fun pair member => valid _ (List.of_mem_zip member).2
  have committed := commit_append dimension passing []
  rw [List.append_nil] at committed
  cases enters_of_addDocuments failed with
  | unembedded nonempty embedded' =>
      rw [embedded] at embedded'
      cases embedded'
  | brokenOff nonempty embedded' brokenOff =>
      rw [embedded] at embedded'
      cases embedded'
      rw [committed] at brokenOff
      cases brokenOff
  | unflushed nonempty embedded' committed' persisted =>
      rw [embedded] at embedded'
      cases embedded'
      rw [committed] at committed'
      cases committed'
      obtain ⟨rfl, unflushed⟩ := persist_of_failure persisted
      exact ⟨rfl, rfl, unflushed⟩

/-- **What a request that fails has done, exactly.**  A store was made and asked anything,
and now it is asked to enter texts, for which there are numbers left.

When there is metadata, but not as much as there are texts, the request fails and nothing
has changed, not even the embedder.  Without texts it succeeds.  Otherwise the embedder is
asked for all texts, and the request fails, and the store and the disk have not changed,
when the embedder fails or does not give one embedding for each text.  When the first
embedding that is not valid is the one in place `i`, the request fails for its fault; the
first `i` texts were entered with their metadata and their embeddings under the next
numbers, nothing else, and the disk is as it was.  And when all embeddings are valid, the
request fails only if the flush does: then all texts were entered and are pending, and
the log holds what it held -- no more than that if it can be cut back, and else perhaps a
fragment behind it. -/
theorem addTexts_fails_exactly (reached : Reached s) (e : Embedder σ) (device : Device)
    (texts : List String) (metadatas : Option (List Metadata)) (w : World σ)
    (fits : s.size + texts.length ≤ UInt64.size) :
    (∀ entries, metadatas = some entries → entries.length ≠ texts.length →
      addTexts e device texts metadatas s w =
        (.error (.configMismatch
          s!"{entries.length} metadata entries for {texts.length} texts"), s, w)) ∧
    ((∀ entries, metadatas = some entries → entries.length = texts.length) → texts = [] →
      addTexts e device texts metadatas s w = (.ok [], s, w)) ∧
    ((∀ entries, metadatas = some entries → entries.length = texts.length) → texts ≠ [] →
      (∀ failure service, e.many texts w.service = (.error failure, service) →
        addTexts e device texts metadatas s w =
          (.error (.embedding failure), s, { w with service })) ∧
      (∀ vectors service, e.many texts w.service = (.ok vectors, service) →
        vectors.length ≠ texts.length →
        addTexts e device texts metadatas s w =
          (.error (.embedding (.countMismatch texts.length vectors.length)), s,
            { w with service })) ∧
      ∀ vectors service, e.many texts w.service = (.ok vectors, service) →
        vectors.length = texts.length →
        (∀ i v, vectors[i]? = some v → ¬ v.Valid s.dimension →
          (∀ u ∈ vectors.take i, u.Valid s.dimension) →
          ∃ fault s', v.fault? s.dimension = some fault ∧
            addTexts e device texts metadatas s w =
              (.error (.invalidArgument fault.message), s', { w with service }) ∧
            Gained s (Call.given (.request (.texts device texts metadatas))) vectors i s') ∧
        ((∀ v ∈ vectors, v.Valid s.dimension) → ∀ failure s' w',
          addTexts e device texts metadatas s w = (.error failure, s', w') →
            Gained s (Call.given (.request (.texts device texts metadatas))) vectors
              texts.length s' ∧
            w'.service = service ∧
            ∃ c cause, s'.backend = .durable c ∧
              c.flushAt device w.disk = (w'.disk, c, some cause) ∧
              failure = .ofIndexError cause ∧
              (device.cut = none →
                Collection.logged c.path w'.disk = Collection.logged c.path w.disk) ∧
              Collection.logged c.path w.disk <+: Collection.logged c.path w'.disk)) := by
  have dimension := reached.dimension_eq
  refine ⟨?_, ?_, ?_⟩
  · rintro entries rfl wrong
    rw [addTexts, toDocuments, if_neg wrong]
  · rintro count rfl
    obtain ⟨documents, made, contents, -⟩ := exists_toDocuments count device
    rw [addTexts, made, List.map_eq_nil_iff.1 contents]
    rfl
  · intro count nonempty
    obtain ⟨documents, made, contents, given⟩ := exists_toDocuments count device
    have some : documents ≠ [] := fun none => nonempty (by rw [← contents, none]; rfl)
    have lengths : documents.length = texts.length := by rw [← contents, List.length_map]
    rw [addTexts, made]
    subst contents
    refine ⟨?_, ?_, ?_⟩
    · intro failure service answer
      exact addDocuments_of_unembedded some (by simp only [Embedder.batch, answer])
    · intro vectors service answer wrong
      exact addDocuments_of_unembedded some
        (by simp only [Embedder.batch, answer, if_neg wrong])
    · intro vectors service answer right
      have embedded : e.batch (documents.map Document.content) w.service =
          (.ok vectors, service) := by
        simp only [Embedder.batch, answer, if_pos right]
      constructor
      · intro i v here invalid valid
        cases found : v.fault? s.dimension with
        | none => exact absurd (Embedding.fault?_eq_none_iff.1 found) invalid
        | some fault =>
            have inside := (List.getElem?_eq_some_iff.1 here).1
            refine ⟨fault, _, rfl,
              addDocuments_of_invalid dimension some embedded here found valid,
              gained_gain (right.trans lengths.symm) given (by omega) (by omega)⟩
      · intro valid failure s' w' failed
        obtain ⟨rfl, asked, unflushed⟩ := addDocuments_of_valid dimension embedded valid failed
        have all : (documents.zip vectors).take (documents.map Document.content).length =
            documents.zip vectors := by
          apply List.take_of_length_le
          rw [List.length_map, List.length_zip]
          exact Nat.min_le_left _ _
        have gained := gained_gain (s := s) (right.trans lengths.symm) given
          (Nat.le_of_eq lengths.symm) fits
        rw [all] at gained
        exact ⟨gained, asked, unflushed⟩

/-! ### A batch with an invalid embedding, and one whose flush fails -/

/-- The second of two texts is not valid: the first is in the store and pending, and an
embedding that was there before is there.  When nothing can be written, the text is in the
store and pending all the same, and the log is as it was. -/
theorem addTexts_fails_exactly_sample :
    (∃ s', addTexts sampleEmbedder .reliable ["north", "south"] none sampleStore
          ⟨(), sampleDisk⟩ =
        (.error (.invalidArgument "vector component 0 is not finite"), s', ⟨(), sampleDisk⟩) ∧
      s'.size = 1 ∧ s'.documents.get? 0 = some { content := "north" } ∧
      s'.backend.index.get? 7 = some [.ofInt 5, .ofInt 5] ∧
      s'.backend.queue = [⟨0, [.ofInt 0, .ofInt 1]⟩]) ∧
    ∃ failure s' w', addTexts sampleEmbedder (.limited 0) ["north"] none sampleStore
          ⟨(), sampleDisk⟩ = (.error failure, s', w') ∧
      s'.size = 1 ∧ s'.backend.queue = [⟨0, [.ofInt 0, .ofInt 1]⟩] ∧
      Collection.logged "c" w'.disk = Collection.logged "c" sampleDisk := by
  have reached : Reached sampleStore := .made create_sample
  have empty : sampleStore.size = 0 := rfl
  have north : (Embedding.Valid 2 [.ofInt 0, .ofInt 1]) :=
    Embedding.fault?_eq_none_iff.1 (by decide)
  constructor
  · obtain ⟨-, -, asked⟩ := addTexts_fails_exactly reached sampleEmbedder .reliable
      ["north", "south"] none ⟨(), sampleDisk⟩ (by rw [empty]; decide)
    obtain ⟨-, -, answered⟩ := asked nofun (by decide)
    obtain ⟨invalid, -⟩ := answered [[.ofInt 0, .ofInt 1], [.nan, .nan]] () rfl rfl
    obtain ⟨fault, s', found, failed, gained⟩ := invalid 1 [.nan, .nan] rfl
      (fun valid => absurd (Embedding.fault?_eq_none_iff.2 valid) (by decide))
      (List.forall_mem_singleton.2 north)
    cases (show some (.notFinite 0) = some fault from found)
    have message : (Embedding.Fault.notFinite 0).message = "vector component 0 is not finite" := by
      decide +kernel
    have size := gained.size_eq
    have document := gained.document 0 (by decide)
    rw [message] at failed
    rw [empty] at size document
    dsimp only at failed
    refine ⟨s', failed, size, document, ?_, ?_⟩
    · rw [(gained.others 7 (.inr (by rw [empty]; decide))).2]
      decide +kernel
    · rw [gained.queue_eq]
      decide +kernel
  · obtain ⟨-, -, asked⟩ := addTexts_fails_exactly reached sampleEmbedder (.limited 0)
      ["north"] none ⟨(), sampleDisk⟩ (by rw [empty]; decide)
    obtain ⟨-, -, answered⟩ := asked nofun (by decide)
    obtain ⟨-, unflushed⟩ := answered [[.ofInt 0, .ofInt 1]] () rfl rfl
    have fails : (addTexts sampleEmbedder (.limited 0) ["north"] none sampleStore
        ⟨(), sampleDisk⟩).1.toOption = none := by
      decide +kernel
    cases failed : addTexts sampleEmbedder (.limited 0) ["north"] none sampleStore
        ⟨(), sampleDisk⟩ with
    | mk answer rest =>
        obtain ⟨s', w'⟩ := rest
        rw [failed] at fails
        cases answer with
        | ok ids => cases fails
        | error failure =>
            obtain ⟨gained, -, c, cause, durable, -, -, undone, -⟩ :=
              unflushed (List.forall_mem_singleton.2 north) _ _ _ failed
            have path := gained.path_eq
            rw [durable] at path
            replace path : c.path = "c" := Option.some.inj path
            have size := gained.size_eq
            rw [empty] at size
            have same := undone rfl
            rw [path] at same
            dsimp only at same
            refine ⟨failure, s', w', rfl, size, ?_, same⟩
            rw [gained.queue_eq]
            decide +kernel

/-- **A flush that fails can change the log.**  Where there was none, an empty one is left; and
where it cannot be cut back, it holds a fragment. -/
theorem failedFlush_changes_log :
    (∃ s₀ w₀ s₁ w₁, create sampleEmbedder durableOptions ⟨(), {}⟩ = (.ok s₀, w₀) ∧
      addTexts sampleEmbedder (.limited 0) ["north"] none s₀ w₀ =
        (.error (.backend (.file .tooLarge)), s₁, w₁) ∧
      s₁.pending = 1 ∧ w₀.disk.read "c/vectors.jsonl" = .error .notFound ∧
      w₁.disk.read "c/vectors.jsonl" = .ok []) ∧
    ∃ s₀ w₀ s₁ w₁, create sampleEmbedder durableOptions ⟨(), {}⟩ = (.ok s₀, w₀) ∧
      addTexts sampleEmbedder (.irrevocable 10) ["north"] none s₀ w₀ =
        (.error (.backend (.file (.other "Input/output error (os error 5)"))), s₁, w₁) ∧
      s₁.pending = 1 ∧ w₀.disk.read "c/vectors.jsonl" = .error .notFound ∧
      w₁.disk.read "c/vectors.jsonl" = .ok (Bytes.ofText "\x7b\"id\":0,\"v".toList) :=
  ⟨⟨_, _, _, _, rfl, rfl, rfl, rfl, rfl⟩, _, _, _, _, rfl, rfl, rfl, rfl, rfl⟩

end Store

end Retrieval
