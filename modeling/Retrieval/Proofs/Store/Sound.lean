/-
# Retrieval.Proofs.Store.Sound -- nothing but valid embeddings

A backend is opened on any disk, with any log; then records are put in, some of which may
be refused, and it is flushed, onto any device and any disk (`Backend.Reached`).  Indexes
in memory and collections are backends of the two kinds (`Index.Reached.backend`,
`Collection.Reached.backend`), and so is what a store keeps its embeddings in, whatever
the store is asked (`Store.Reached.backend`).

All of these states have one invariant: metric and dimension are those asked for, and
what is stored or pending is valid for them (`Backend.Sound`, kept by each step).
Everything else follows from it (`Backend.Sound.guarded`): what is not valid is refused
and what is valid is not, and no search asks for a distance that is not meant.  A store
has the dimension of its backend, so the backend refuses nothing that the store has
checked (`Store.commit?_eq`).
-/
import Retrieval.Proofs.Index.Guarded
import Retrieval.Proofs.Store.Failure
import Retrieval.Proofs.Store.Pending

namespace Retrieval

set_option autoImplicit false

/-! ## States -/

/-- An index was made and embeddings were put in, of which some may have been refused. -/
inductive Index.Reached (asked : Header) : Index → Prop
  | made : Reached asked (Collection.fresh asked)
  | offered {index : Index} (earlier : Reached asked index) (pair : DocumentId × Embedding) :
      Reached asked (index.offer pair)

/-- A collection was opened on any disk, and then records were put in, of which some may
have been refused, and flushed. -/
inductive Collection.Reached (asked : Header) : Collection → Prop
  | opened {path : String} {disk after : Disk} {c : Collection}
      (done : openAt path asked disk = (after, .ok c)) : Reached asked c
  | offered {c : Collection} (earlier : Reached asked c) (r : Record) : Reached asked (c.offer r)
  | flushed {c : Collection} (earlier : Reached asked c) (device : Device) (disk : Disk) :
      Reached asked (c.flushAt device disk).2.1

namespace Backend

variable {asked : Header} {b : Backend}

/-- The backend after an insertion that may be refused. -/
def offer (b : Backend) (r : Record) : Backend :=
  match b.insert r.id r.vector with
  | .ok after => after
  | .error _ => b

/-- A backend was opened on any disk, and then records were put in, of which some may
have been refused, and flushed. -/
inductive Reached (asked : Header) : Backend → Prop
  | opened {path : Option String} {disk after : Disk} {b : Backend}
      (done : openAt path asked disk = (after, .ok b)) : Reached asked b
  | offered {b : Backend} (earlier : Reached asked b) (r : Record) : Reached asked (b.offer r)
  | flushed {b : Backend} (earlier : Reached asked b) (device : Device) (disk : Disk) :
      Reached asked (b.flush device disk).2.1

theorem Reached.inserted {id : DocumentId} {v : Embedding} {after : Backend}
    (earlier : Reached asked b) (done : b.insert id v = .ok after) : Reached asked after := by
  have offered := earlier.offered ⟨id, v⟩
  rw [offer, done] at offered
  exact offered

end Backend

/-- An index in memory is a backend. -/
theorem Index.Reached.backend {asked : Header} {index : Index} (reached : Reached asked index) :
    Backend.Reached asked (.ephemeral index) := by
  induction reached with
  | made =>
      have opened : Backend.openAt none asked {} =
          ({}, .ok (.ephemeral (Collection.fresh asked))) := rfl
      exact .opened opened
  | @offered index earlier pair ih =>
      have same : Backend.ephemeral (index.offer pair) =
          (Backend.ephemeral index).offer ⟨pair.1, pair.2⟩ := by
        rw [Backend.offer, Backend.insert, offer]
        cases index.insert pair.1 pair.2 <;> rfl
      rw [same]
      exact ih.offered _

/-- A collection is a backend. -/
theorem Collection.Reached.backend {asked : Header} {c : Collection} (reached : Reached asked c) :
    Backend.Reached asked (.durable c) := by
  induction reached with
  | @opened path disk after c done =>
      have opened : Backend.openAt (some path) asked disk = (after, .ok (.durable c)) := by
        rw [Backend.openAt, done]
        rfl
      exact .opened opened
  | @offered c earlier r ih =>
      have same : Backend.durable (c.offer r) = (Backend.durable c).offer r := by
        rw [Backend.offer, Backend.insert, offer]
        cases c.insert r.id r.vector <;> rfl
      rw [same]
      exact ih.offered r
  | flushed earlier device disk ih => exact ih.flushed device disk

/-! ## The invariant -/

namespace Backend

variable {asked : Header} {b : Backend}

/-- Metric and dimension are those asked for, and whatever is stored or pending is valid. -/
structure Sound (asked : Header) (b : Backend) : Prop where
  metric_eq : b.index.metric = asked.metric
  dimension_eq : b.index.dimension = asked.dimension
  stored : ∀ entry ∈ b.index.vectors, entry.2.Valid asked.dimension
  queued : ∀ r ∈ b.queue, r.vector.Valid asked.dimension

namespace Sound

theorem opened {path : Option String} {disk after : Disk}
    (done : openAt path asked disk = (after, .ok b)) : Sound asked b := by
  obtain ⟨records, valid, index, nothing⟩ := openAt_index done
  refine ⟨?_, ?_, ?_, ?_⟩
  · rw [index]
    rfl
  · rw [index]
    rfl
  · rw [index]
    intro entry member
    rcases Entries.mem_putAll member with replayed | old
    · obtain ⟨r, among, rfl⟩ := List.mem_map.1 replayed
      exact valid r among
    · cases old
  · rw [nothing]
    exact nofun

/-- What is valid for the dimension asked for has no fault here. -/
theorem fault?_eq (sound : Sound asked b) (v : Embedding) :
    v.fault? b.index.dimension = v.fault? asked.dimension := by
  rw [sound.dimension_eq]

theorem gain (sound : Sound asked b) {r : Record} (valid : r.vector.Valid asked.dimension) :
    Sound asked (b.gain [r]) := by
  have one : ∀ s ∈ [r], s.vector.Valid asked.dimension := List.forall_mem_singleton.2 valid
  refine ⟨?_, ?_, ?_, ?_⟩
  · rw [gain_index]
    exact sound.metric_eq
  · rw [gain_index]
    exact sound.dimension_eq
  · rw [gain_index]
    intro entry member
    rcases Entries.mem_putAll member with new | old
    · obtain ⟨s, among, rfl⟩ := List.mem_map.1 new
      exact one s among
    · exact sound.stored entry old
  · rw [gain_queue]
    intro s member
    rcases List.mem_append.1 member with old | new
    · exact sound.queued s old
    · split at new
      · exact one s new
      · cases new

/-- What is not valid is refused, and nothing changes. -/
theorem offer_of_fault (sound : Sound asked b) {r : Record} {fault : Embedding.Fault}
    (found : r.vector.fault? asked.dimension = some fault) : b.offer r = b := by
  rw [← sound.fault?_eq] at found
  rw [offer, insert_of_fault r.id found]

theorem insert_eq (sound : Sound asked b) (id : DocumentId) {v : Embedding}
    (valid : v.Valid asked.dimension) : b.insert id v = .ok (b.gain [⟨id, v⟩]) := by
  apply insert_of_valid
  rw [sound.fault?_eq]
  exact Embedding.fault?_eq_none_iff.2 valid

theorem offer (sound : Sound asked b) (r : Record) : Sound asked (b.offer r) := by
  cases found : r.vector.fault? asked.dimension with
  | some fault =>
      rw [sound.offer_of_fault found]
      exact sound
  | none =>
      have valid := Embedding.fault?_eq_none_iff.1 found
      rw [Backend.offer, sound.insert_eq r.id valid]
      exact sound.gain valid

theorem flush (sound : Sound asked b) (device : Device) (disk : Disk) :
    Sound asked (b.flush device disk).2.1 := by
  have index := flush_index b device disk
  refine ⟨index ▸ sound.metric_eq, index ▸ sound.dimension_eq, index ▸ sound.stored, ?_⟩
  rcases flush_queue b device disk with same | nothing
  · rw [same]
    exact sound.queued
  · rw [nothing]
    exact nofun

end Sound

/-- **The invariant holds in every state.** -/
theorem Reached.sound (reached : Reached asked b) : Sound asked b := by
  induction reached with
  | opened done => exact .opened done
  | offered earlier r ih => exact ih.offer r
  | flushed earlier device disk ih => exact ih.flush device disk

/-- A backend that was made for a header: whatever is stored or pending is valid, what is
not valid is refused and changes nothing, what is valid is put in, and distances are
asked for only where they are meant. -/
structure Guarded (asked : Header) (b : Backend) : Prop extends Sound asked b where
  refuses : ∀ r : Record, ¬ r.vector.Valid asked.dimension →
    (∃ fault, b.insert r.id r.vector = .error fault) ∧ b.offer r = b
  accepts : ∀ r : Record, r.vector.Valid asked.dimension →
    b.insert r.id r.vector = .ok (b.gain [r])
  measures : ∀ measure, asked.metric.IsGivenBy measure → ∀ query k accept,
    b.index.searchBy measure query k accept = some (b.index.search query k accept)

/-- Everything follows from the invariant. -/
theorem Sound.guarded (sound : Sound asked b) : Guarded asked b := by
  refine ⟨sound, ?_, fun r valid => sound.insert_eq r.id valid, ?_⟩
  · intro r invalid
    cases found : r.vector.fault? asked.dimension with
    | none => exact absurd (Embedding.fault?_eq_none_iff.1 found) invalid
    | some fault =>
        refine ⟨⟨fault, insert_of_fault r.id ?_⟩, sound.offer_of_fault found⟩
        rw [sound.fault?_eq, found]
  · intro measure given query k accept
    have stored := sound.stored
    rw [← sound.dimension_eq] at stored
    rw [← sound.metric_eq] at given
    exact Index.searchBy_eq stored given query k accept

end Backend

/-! ## Stores -/

namespace Store

variable {σ : Type} {asked : Header} {s : Store}

/-- `Store.nearest` with every distance asked of a measure. -/
def nearestBy (measure : Measure) (s : Store) (query : Embedding) (k : Nat)
    (filter : Option Filter) : Option (Except StoreError Report) :=
  match query.fault? s.dimension with
  | some f => some (.error (.ofFault f))
  | none =>
      (s.backend.index.searchBy measure query k (s.candidate filter)).map fun
        | .error f => .error (.ofFault f)
        | .ok hits => .ok (s.join hits)

/-- `Store.commit`, of which nothing comes when the backend refuses an embedding that the
store has checked. -/
def commit? (s : Store) :
    List (Document × Embedding) → Option (Except StoreError (List DocumentId) × Store)
  | [] => some (.ok [], s)
  | (d, v) :: rest =>
      match v.fault? s.dimension with
      | some f => some (.error (.ofFault f), s)
      | none =>
          match s.backend.insert s.documents.nextId v with
          | .error _ => none
          | .ok backend =>
              (commit? { s with documents := s.documents.insert d, backend } rest).map
                fun (ids, after) => (ids.map (s.documents.nextId :: ·), after)

/-- **The backend refuses nothing that the store has checked.** -/
theorem commit?_eq (dimension : s.backend.index.dimension = s.dimension)
    (pairs : List (Document × Embedding)) : s.commit? pairs = some (s.commit pairs) := by
  induction pairs generalizing s with
  | nil => rfl
  | cons pair rest ih =>
      obtain ⟨d, v⟩ := pair
      cases found : v.fault? s.dimension with
      | some fault => simp only [commit?, commit, found]
      | none =>
          have inserted := Backend.insert_of_valid s.documents.nextId (dimension ▸ found)
          have again : (s.backend.gain [⟨s.documents.nextId, v⟩]).index.dimension =
              s.dimension := by
            rw [Backend.gain_index]
            exact dimension
          have later := @ih { s with
            documents := s.documents.insert d
            backend := s.backend.gain [⟨s.documents.nextId, v⟩] } again
          simp only [commit?, commit, found, inserted, later, Option.map_some]

theorem nearestBy_eq (guarded : s.backend.Guarded asked) {measure : Measure}
    (given : asked.metric.IsGivenBy measure) (query : Embedding) (k : Nat)
    (filter : Option Filter) :
    s.nearestBy measure query k filter = some (s.nearest query k filter) := by
  unfold nearestBy nearest
  cases query.fault? s.dimension with
  | some fault => rfl
  | none =>
      dsimp only
      rw [guarded.measures measure given]
      cases s.backend.index.search query k (s.candidate filter) <;> rfl

/-! ### The backend of a store -/

/-- Entering documents is putting in records. -/
theorem commit_backend {pairs : List (Document × Embedding)}
    {outcome : Except StoreError (List DocumentId)} {s' : Store}
    (commits : Commits s pairs outcome s') (reached : s.backend.Reached asked) :
    s'.backend.Reached asked := by
  induction commits with
  | nothing => exact reached
  | invalid => exact reached
  | refused => exact reached
  | entered valid inserted later ih => exact ih (reached.inserted inserted)

theorem persist_backend (reached : s.backend.Reached asked) (device : Device) (disk : Disk) :
    (s.persist device disk).2.1.backend.Reached asked :=
  reached.flushed device disk

theorem addDocuments_backend (reached : s.backend.Reached asked) (e : Embedder σ)
    (device : Device) (documents : List Document) (w : World σ) :
    (addDocuments e device documents s w).2.1.backend.Reached asked := by
  have committing (pairs : List (Document × Embedding))
      {outcome : Except StoreError (List DocumentId)} {s' : Store}
      (done : s.commit pairs = (outcome, s')) : s'.backend.Reached asked := by
    have commits := commits_commit s pairs
    rw [done] at commits
    exact commit_backend commits reached
  cases done : addDocuments e device documents s w with
  | mk answer rest =>
      obtain ⟨s', w'⟩ := rest
      cases enters_of_addDocuments done with
      | nothing => exact reached
      | unembedded => exact reached
      | brokenOff nonempty embedded committed => exact committing _ committed
      | unflushed nonempty embedded committed persisted =>
          have last := persist_backend (committing _ committed) device w.disk
          rw [persisted] at last
          exact last
      | entered nonempty embedded committed persisted =>
          have last := persist_backend (committing _ committed) device w.disk
          rw [persisted] at last
          exact last

theorem step_backend (reached : s.backend.Reached asked) (e : Embedder σ) (w : World σ)
    (r : Request) : (s.step e w r).1.backend.Reached asked := by
  cases r with
  | texts device contents metadatas =>
      unfold step addTexts
      dsimp only
      cases toDocuments contents metadatas with
      | error _ => exact reached
      | ok documents => exact addDocuments_backend reached e device documents w
  | documents device documents => exact addDocuments_backend reached e device documents w
  | search query k filter => exact reached
  | searchBatch queries k => exact reached

/-- Requests change neither the metric nor the dimension. -/
theorem Reached.step_settings (reached : Reached s) (e : Embedder σ) (w : World σ) (r : Request) :
    (s.step e w r).1.metric = s.metric ∧ (s.step e w r).1.dimension = s.dimension := by
  obtain ⟨start, ingested, -, agrees⟩ := reached.agrees
  have after := step_agrees agrees e w r
  exact ⟨after.metric.trans agrees.metric.symm, after.dimension.trans agrees.dimension.symm⟩

/-- **What a store keeps its embeddings in is a backend,** made for the metric and the
dimension of the store. -/
theorem Reached.backend (reached : Reached s) :
    s.backend.Reached ⟨s.dimension, s.metric⟩ := by
  induction reached with
  | @made σ e o w w' s created =>
      unfold create at created
      split at created
      · cases created
      · split at created
        · cases created
        · split at created
          · cases created
          · rename_i opened
            cases created
            exact .opened opened
  | served earlier e w r ih =>
      obtain ⟨metric, dimension⟩ := Reached.step_settings earlier e w r
      rw [metric, dimension]
      exact step_backend ih e w r

end Store

/-! ## All states -/

/-- **Only valid embeddings are stored and compared.**  Indexes in memory, collections
opened on any disk, backends and what stores keep their embeddings in are all guarded in
every state, for the metric and the dimension they were made for; those of a store are
its own.  Its searches ask for no distance that is not meant, and while it enters
documents the backend refuses nothing that the store has checked. -/
theorem only_valid_stored_and_compared :
    (∀ asked index, Index.Reached asked index → (Backend.ephemeral index).Guarded asked) ∧
    (∀ asked c, Collection.Reached asked c → (Backend.durable c).Guarded asked) ∧
    (∀ asked b, Backend.Reached asked b → b.Guarded asked) ∧
    ∀ s, Store.Reached s →
      s.backend.Guarded ⟨s.dimension, s.metric⟩ ∧
      (∀ measure, s.metric.IsGivenBy measure → ∀ query k filter,
        s.nearestBy measure query k filter = some (s.nearest query k filter)) ∧
      ∀ pairs, s.commit? pairs = some (s.commit pairs) := by
  refine ⟨?_, ?_, ?_, ?_⟩
  · intro asked index reached
    exact reached.backend.sound.guarded
  · intro asked c reached
    exact reached.backend.sound.guarded
  · intro asked b reached
    exact reached.sound.guarded
  · intro s reached
    have guarded := reached.backend.sound.guarded
    refine ⟨guarded, fun measure given => ?_, ?_⟩
    · exact Store.nearestBy_eq guarded given
    · exact Store.commit?_eq reached.dimension_eq

/-- An embedding was put in and put over, and another one was refused. -/
def offered : Index :=
  (((Collection.fresh ⟨2, .euclidean⟩).offer (3, [.ofInt 1, .ofInt 0])).offer
    (3, [.ofInt 0, .ofInt 1])).offer (4, [.ofInt 1, .nan])

theorem only_valid_stored_and_compared_sample :
    (offered.size = 1 ∧
      (Backend.ephemeral offered).offer ⟨3, [.ofInt 1]⟩ = .ephemeral offered) ∧
    (∃ c, Collection.openAt "c" ⟨2, .euclidean⟩
        (Collection.shelf ⟨2, .euclidean⟩ (Log.bytes Store.oldLog)) = (Store.sampleDisk, .ok c) ∧
      c.index.size = 2 ∧ ∀ entry ∈ c.index.vectors, entry.2.Valid 2) ∧
    (∃ b, Backend.openAt none ⟨1, .dot⟩ {} = ({}, .ok b) ∧ Embedding.Valid 1 [.ofInt 5] ∧
      b.insert 0 [.ofInt 5] = .ok (b.gain [⟨0, [.ofInt 5]⟩])) ∧
    Store.sampleStore.nearestBy Metric.euclidean.guarded [.ofInt 0, .ofInt 1] 1 none =
      some (Store.sampleStore.nearest [.ofInt 0, .ofInt 1] 1 none) ∧
    Store.sampleStore.commit? [(⟨"east", []⟩, [.ofInt 1, .ofInt 0]), (⟨"west", []⟩, [.nan])] =
      some (Store.sampleStore.commit
        [(⟨"east", []⟩, [.ofInt 1, .ofInt 0]), (⟨"west", []⟩, [.nan])]) := by
  obtain ⟨indexes, collections, backends, stores⟩ := only_valid_stored_and_compared
  refine ⟨⟨by decide +kernel, ?_⟩, ⟨_, Store.openAt_sample, by decide +kernel, ?_⟩, ?_, ?_⟩
  · have reached : Index.Reached ⟨2, .euclidean⟩ offered :=
      ((Index.Reached.made.offered _).offered _).offered _
    have invalid : ¬ Embedding.Valid 2 [.ofInt 1] :=
      fun valid => absurd (Embedding.fault?_eq_none_iff.2 valid) (by decide)
    exact ((indexes _ _ reached).refuses ⟨3, [.ofInt 1]⟩ invalid).2
  · exact (collections _ _ (.opened Store.openAt_sample)).stored
  · have valid : Embedding.Valid 1 [.ofInt 5] := Embedding.fault?_eq_none_iff.1 (by decide)
    have opened : Backend.openAt none ⟨1, .dot⟩ {} =
        ({}, .ok (.ephemeral (Collection.fresh ⟨1, .dot⟩))) := rfl
    exact ⟨_, opened, valid, (backends _ _ (.opened opened)).accepts ⟨0, [.ofInt 5]⟩ valid⟩
  · obtain ⟨-, measured, committed⟩ := stores _ (.made Store.create_sample)
    exact ⟨measured _ (Metric.isGivenBy_guarded _) _ _ _, committed _⟩

end Retrieval
