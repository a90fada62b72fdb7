/-
# Retrieval.Proofs.Store.Likeness -- a store on disk answers like one in memory

What a store answers depends on its metric, its dimension, its documents and its index.
Two stores that have these in common are alike (`Store.Alike`), and while no flush fails
every call is answered alike and leaves them alike (`Store.Twins.respond`).

A flush cannot fail in memory, and on disk not where the store keeps its collection and
the device does not fail (`Store.Steady`).  So from the first call to the last a caller
cannot tell by the answers where the embeddings are (`Store.transcript_withPath`).
-/
import Retrieval.Proofs.Store.Conversation
import Retrieval.Proofs.Store.Restart

namespace Retrieval

set_option autoImplicit false

namespace Backend

/-- An insertion is one into the index, wherever that is. -/
theorem insert_map_index (b : Backend) (id : DocumentId) (v : Embedding) :
    (b.insert id v).map index = b.index.insert id v := by
  cases b with
  | ephemeral i =>
      show ((i.insert id v).map ephemeral).map index = i.insert id v
      cases i.insert id v <;> rfl
  | durable c =>
      show ((c.insert id v).map durable).map index = c.index.insert id v
      unfold Collection.insert
      cases c.index.insert id v <;> rfl

theorem insert_isDurable {b after : Backend} {id : DocumentId} {v : Embedding}
    (done : b.insert id v = .ok after) : after.isDurable = b.isDurable := by
  cases b with
  | ephemeral i =>
      obtain ⟨_, -, rfl⟩ := map_eq_ok_iff.1 done
      rfl
  | durable c =>
      obtain ⟨_, -, rfl⟩ := map_eq_ok_iff.1 done
      rfl

end Backend

namespace Store

variable {σ : Type} {e : Embedder σ} {s t : Store} {w w' : World σ} {device : Device}

/-! ## Flushes that cannot fail -/

/-- The store is in memory, or keeps a collection on disk. -/
inductive Steady (s : Store) (disk : Disk) : Prop
  | inMemory (ephemeral : s.backend.isDurable = false)
  | onDisk {path : String} {place : List String} {asked : Header}
      (kept : Kept path place asked s disk)

theorem Commits.isDurable {pairs : List (Document × Embedding)}
    {outcome : Except StoreError (List DocumentId)} {s' : Store}
    (commits : Commits s pairs outcome s') : s'.backend.isDurable = s.backend.isDurable := by
  induction commits with
  | nothing s => rfl
  | invalid found => rfl
  | refused valid refused => rfl
  | entered valid inserted later ih => exact ih.trans (Backend.insert_isDurable inserted)

theorem persist_isDurable (s : Store) (device : Device) (disk : Disk) :
    (s.persist device disk).2.1.backend.isDurable = s.backend.isDurable := by
  obtain ⟨metric, dimension, path, documents, backend⟩ := s
  cases backend <;> rfl

theorem Steady.commit {disk : Disk} (steady : Steady s disk)
    (pairs : List (Document × Embedding)) : Steady (s.commit pairs).2 disk := by
  cases steady with
  | inMemory ephemeral => exact .inMemory ((s.commits_commit pairs).isDurable.trans ephemeral)
  | onDisk kept => exact .onDisk (kept.commit pairs)

/-- What is entered in such a store is flushed with success onto a device that does not fail. -/
theorem Steady.persist {disk : Disk} (steady : Steady s disk) (obliging : device.Obliging) :
    (s.persist device disk).2.2 = none ∧
      Steady (s.persist device disk).2.1 (s.persist device disk).1 := by
  cases steady with
  | inMemory ephemeral =>
      refine ⟨?_, .inMemory ((s.persist_isDurable device disk).trans ephemeral)⟩
      obtain ⟨metric, dimension, path, documents, backend⟩ := s
      cases backend with
      | ephemeral index => rfl
      | durable c => cases ephemeral
  | onDisk kept =>
      obtain ⟨c, flushed, durable, follows⟩ := kept.follows
      obtain ⟨after, c', done⟩ :=
        Collection.flushAt_obliging obliging follows.path_eq follows.stored
      have succeeds : (s.persist device disk).2.2 = none := by
        simp only [Store.persist, durable, Backend.flush, done]
        rfl
      exact ⟨succeeds, .onDisk (kept.persist fun fails => absurd succeeds fails)⟩

/-! ## Stores that are alike -/

/-- Nothing that an answer depends on tells the stores apart. -/
structure Alike (s t : Store) : Prop where
  metric : s.metric = t.metric
  dimension : s.dimension = t.dimension
  documents : s.documents = t.documents
  index : s.backend.index = t.backend.index

namespace Alike

theorem refl (s : Store) : Alike s s := ⟨rfl, rfl, rfl, rfl⟩

theorem symm (alike : Alike s t) : Alike t s :=
  ⟨alike.metric.symm, alike.dimension.symm, alike.documents.symm, alike.index.symm⟩

theorem trans {u : Store} (alike : Alike s t) (alike' : Alike t u) : Alike s u :=
  ⟨alike.metric.trans alike'.metric, alike.dimension.trans alike'.dimension,
    alike.documents.trans alike'.documents, alike.index.trans alike'.index⟩

/-- An insertion under the next number does the same to both indexes. -/
theorem insert (alike : Alike s t) (v : Embedding) :
    (t.backend.insert t.documents.nextId v).map Backend.index =
      (s.backend.insert s.documents.nextId v).map Backend.index := by
  rw [Backend.insert_map_index, Backend.insert_map_index, alike.index, alike.documents]

/-- What enters documents into the one store enters them into the other. -/
theorem commits {s' : Store} {pairs : List (Document × Embedding)}
    {outcome : Except StoreError (List DocumentId)} (alike : Alike s t)
    (commits : Commits s pairs outcome s') :
    ∃ t', t.commit pairs = (outcome, t') ∧ Alike s' t' := by
  induction commits generalizing t with
  | nothing s => exact ⟨t, rfl, alike⟩
  | invalid found =>
      rw [alike.dimension] at found
      exact ⟨t, by simp only [Store.commit, found], alike⟩
  | @refused s d v rest fault valid refused =>
      have same := alike.insert v
      rw [refused] at same
      rw [alike.dimension] at valid
      cases inserted : t.backend.insert t.documents.nextId v with
      | ok backend =>
          rw [inserted] at same
          cases same
      | error fault' =>
          rw [inserted] at same
          cases same
          refine ⟨_, by simp only [Store.commit, valid, inserted]; rfl, ?_⟩
          exact ⟨alike.metric, alike.dimension, by rw [alike.documents], alike.index⟩
  | @entered s s' d v rest backend outcome valid inserted later ih =>
      have same := alike.insert v
      rw [inserted] at same
      rw [alike.dimension] at valid
      cases inserted' : t.backend.insert t.documents.nextId v with
      | error fault =>
          rw [inserted'] at same
          cases same
      | ok backend' =>
          rw [inserted'] at same
          have next : Alike { s with documents := s.documents.insert d, backend }
              { t with documents := t.documents.insert d, backend := backend' } :=
            ⟨alike.metric, alike.dimension, by rw [alike.documents], (Except.ok.inj same).symm⟩
          obtain ⟨t', committed, last⟩ := ih next
          refine ⟨t', ?_, last⟩
          simp only [Store.commit, valid, inserted', committed, alike.documents]

/-- A flush changes nothing that an answer depends on. -/
theorem persist (s : Store) (device : Device) (disk : Disk) :
    Alike s (s.persist device disk).2.1 :=
  ⟨rfl, rfl, rfl, (Backend.flush_index s.backend device disk).symm⟩

theorem nearest (alike : Alike s t) (query : Embedding) (k : Nat) (filter : Option Filter) :
    s.nearest query k filter = t.nearest query k filter := by
  have candidates : s.candidate filter = t.candidate filter := by
    funext id
    unfold candidate
    rw [alike.documents]
  have joins (hits : List Hit) : s.join hits = t.join hits := by
    rw [join, join, alike.documents]
  rw [Store.nearest, Store.nearest, alike.dimension, alike.index, candidates]
  simp only [joins]

theorem search (alike : Alike s t) (e : Embedder σ) (query : String) (k : Nat)
    (filter : Option Filter) (service : σ) :
    s.search e query k filter service = t.search e query k filter service := by
  unfold Store.search
  simp only [alike.nearest]

theorem searchBatch (alike : Alike s t) (e : Embedder σ) (queries : List String) (k : Nat)
    (service : σ) : s.searchBatch e queries k service = t.searchBatch e queries k service := by
  unfold Store.searchBatch
  simp only [alike.nearest, alike.dimension]

end Alike

/-! ## One call -/

/-- The device of the call, if it has one, does not fail. -/
def Call.Obliging : Call → Prop
  | .request (.texts device _ _) | .request (.documents device _) => device.Obliging
  | .request (.search _ _ _) | .request (.searchBatch _ _) | .document _ => True

/-- Where no flush fails, the answer is how far the embeddings are valid. -/
theorem Steady.addDocuments (steady : Steady s w.disk) (obliging : device.Obliging)
    {documents : List Document} (nonempty : ¬ documents.isEmpty = true) {vectors : List Embedding}
    {service : σ}
    (embedded : e.batch (documents.map Document.content) w.service = (.ok vectors, service)) :
    ∃ s' disk, Store.addDocuments e device documents s w =
        ((s.commit (documents.zip vectors)).1, s', ⟨service, disk⟩) ∧
      Alike (s.commit (documents.zip vectors)).2 s' ∧ Steady s' disk := by
  have entered := steady.commit (documents.zip vectors)
  rw [Store.addDocuments, if_neg nonempty, embedded]
  dsimp only
  cases committed : s.commit (documents.zip vectors) with
  | mk outcome s₁ =>
      rw [committed] at entered
      cases outcome with
      | error failure => exact ⟨s₁, w.disk, rfl, .refl s₁, entered⟩
      | ok ids =>
          obtain ⟨succeeds, flushed⟩ := entered.persist obliging
          have alike := Alike.persist s₁ device w.disk
          dsimp only
          cases persisted : s₁.persist device w.disk with
          | mk disk result =>
              obtain ⟨s₂, failure⟩ := result
              rw [persisted] at succeeds flushed alike
              cases succeeds
              exact ⟨s₂, disk, rfl, alike, flushed⟩

/-- Two stores that are alike, with the same embedder, in neither of which a flush fails. -/
structure Twins (s : Store) (w : World σ) (t : Store) (w' : World σ) : Prop where
  alike : Alike s t
  service : w.service = w'.service
  left : Steady s w.disk
  right : Steady t w'.disk

namespace Twins

theorem addDocuments (twins : Twins s w t w') (obliging : device.Obliging) (e : Embedder σ)
    (documents : List Document) :
    (Store.addDocuments e device documents s w).1 =
        (Store.addDocuments e device documents t w').1 ∧
      Twins (Store.addDocuments e device documents s w).2.1
        (Store.addDocuments e device documents s w).2.2
        (Store.addDocuments e device documents t w').2.1
        (Store.addDocuments e device documents t w').2.2 := by
  obtain ⟨alike, service, left, right⟩ := twins
  by_cases empty : documents.isEmpty = true
  · rw [Store.addDocuments, Store.addDocuments, if_pos empty, if_pos empty]
    exact ⟨rfl, alike, service, left, right⟩
  cases embedded : e.batch (documents.map Document.content) w.service with
  | mk vectors? reached =>
      have embedded' := embedded
      rw [service] at embedded'
      cases vectors? with
      | error failure =>
          rw [Store.addDocuments, Store.addDocuments, if_neg empty, if_neg empty, embedded,
            embedded']
          exact ⟨rfl, alike, rfl, left, right⟩
      | ok vectors =>
          obtain ⟨s', disk, inS, likeS, steadyS⟩ := left.addDocuments obliging empty embedded
          obtain ⟨t', disk', inT, likeT, steadyT⟩ := right.addDocuments obliging empty embedded'
          obtain ⟨t₁, committed, entered⟩ :=
            alike.commits (s.commits_commit (documents.zip vectors))
          rw [committed] at inT likeT
          rw [inS, inT]
          exact ⟨rfl, likeS.symm.trans (entered.trans likeT), rfl, steadyS, steadyT⟩

/-- **Every call is answered alike,** and leaves the stores alike. -/
theorem respond (twins : Twins s w t w') {call : Call} (obliging : call.Obliging)
    (e : Embedder σ) :
    (s.respond e w call).1 = (t.respond e w' call).1 ∧
      Twins (s.respond e w call).2.1 (s.respond e w call).2.2
        (t.respond e w' call).2.1 (t.respond e w' call).2.2 := by
  cases call with
  | document id =>
      refine ⟨?_, twins⟩
      simp only [Store.respond, twins.alike.documents]
  | request r =>
      cases r with
      | texts device contents metadatas =>
          simp only [Store.respond, addTexts]
          cases toDocuments contents metadatas with
          | error failure => exact ⟨rfl, twins⟩
          | ok documents =>
              obtain ⟨same, after⟩ := twins.addDocuments obliging e documents
              exact ⟨by rw [same], after⟩
      | documents device documents =>
          obtain ⟨same, after⟩ := twins.addDocuments obliging e documents
          exact ⟨by simp only [Store.respond, same], after⟩
      | search query k filter =>
          obtain ⟨alike, service, left, right⟩ := twins
          simp only [Store.respond, alike.search, service]
          exact ⟨trivial, alike, rfl, left, right⟩
      | searchBatch queries k =>
          obtain ⟨alike, service, left, right⟩ := twins
          simp only [Store.respond, alike.searchBatch, service]
          exact ⟨trivial, alike, rfl, left, right⟩

theorem sizes (twins : Twins s w t w') : s.size = t.size ∧ s.backendSize = t.backendSize := by
  rw [size, size, backendSize, backendSize, twins.alike.documents, twins.alike.index]
  exact ⟨rfl, rfl⟩

/-- Any number of calls are answered alike. -/
theorem converse (twins : Twins s w t w') (e : Embedder σ) {calls : List Call}
    (obliging : ∀ call ∈ calls, call.Obliging) :
    (s.converse e w calls).1 = (t.converse e w' calls).1 := by
  induction calls generalizing s w t w' with
  | nil => rfl
  | cons call rest ih =>
      obtain ⟨answer, after⟩ := twins.respond (obliging call List.mem_cons_self) e
      obtain ⟨size, backendSize⟩ := after.sizes
      rw [converse_cons, converse_cons, answer, size, backendSize,
        ih after fun call member => obliging call (List.mem_cons_of_mem _ member)]

end Twins

/-! ## From the beginning -/

/-- What is seen of a store: why it could not be made, or its metric, its dimension, its
sizes, and the exchanges from then on. -/
def transcript (e : Embedder σ) (o : Options) (w : World σ) (calls : List Call) :
    Except StoreError (Metric × UInt64 × Nat × Nat × List Exchange) :=
  match create e o w with
  | (.error failure, _) => .error failure
  | (.ok s, w) => .ok (s.metric, s.dimension, s.size, s.backendSize, (s.converse e w calls).1)

section Fresh

variable {o : Options} {path : String} {place : List String} {disk made : Disk}

/-- With a dimension the store is made in memory, and in a fresh folder too. -/
theorem exists_twins (inMemory : o.path = none) (makes : disk.makePath path = (made, none))
    (leads : made.folder path = .ok (place, [])) (roomy : Collection.isCramped path = false)
    (other : Disk) {service reached : σ} {dimension : UInt64} (positive : dimension ≠ 0)
    (resolved : resolveDimension e o service = (.ok dimension, reached)) :
    ∃ s w t w', create e (o.withPath path) ⟨service, disk⟩ = (.ok s, w) ∧
      create e o ⟨service, other⟩ = (.ok t, w') ∧ Twins s w t w' := by
  have home : Collection.Home made path place [] :=
    ⟨leads, Collection.sound_of_makePath makes, roomy⟩
  obtain ⟨after, opened, -⟩ := Collection.openAt_empty home ⟨dimension, o.metric⟩
  rw [← Collection.openAt_of_makePath makes leads] at opened
  have same : resolveDimension e (o.withPath path) service = resolveDimension e o service := rfl
  let onDisk : Store :=
    { metric := o.metric, dimension, path := some path
      backend := .durable ⟨path, Collection.fresh ⟨dimension, o.metric⟩, []⟩ }
  let ephemeral : Store :=
    { metric := o.metric, dimension, path := none
      backend := .ephemeral (Collection.fresh ⟨dimension, o.metric⟩) }
  have created : create e (o.withPath path) ⟨service, disk⟩ = (.ok onDisk, ⟨reached, after⟩) := by
    have asks : (o.withPath path).path = some path := rfl
    have metric : (o.withPath path).metric = o.metric := rfl
    simp only [create, same, resolved, if_neg positive, asks, metric, Backend.openAt, opened]
    rfl
  have created' : create e o ⟨service, other⟩ = (.ok ephemeral, ⟨reached, other⟩) := by
    simp only [create, resolved, if_neg positive, inMemory, Backend.openAt]
    rfl
  have kept := (create_kept rfl makes leads created).1
  exact ⟨onDisk, _, ephemeral, _, created, created',
    ⟨rfl, rfl, rfl, rfl⟩, rfl, .onDisk kept, .inMemory rfl⟩

/-- **A caller cannot tell where the embeddings are.**  A store in memory, and one with the
same options on a fresh folder in which no operation on files fails, fail to be made for the
same reason, or give the same answers to any calls, and have the same sizes after each.
Calls may fail, for their arguments or for what the embedder does, and may fail halfway. -/
theorem transcript_withPath (inMemory : o.path = none)
    (makes : disk.makePath path = (made, none)) (leads : made.folder path = .ok (place, []))
    (roomy : Collection.isCramped path = false) (e : Embedder σ) (service : σ) (other : Disk)
    {calls : List Call} (obliging : ∀ call ∈ calls, call.Obliging) :
    transcript e (o.withPath path) ⟨service, disk⟩ calls =
      transcript e o ⟨service, other⟩ calls := by
  have same : resolveDimension e (o.withPath path) service = resolveDimension e o service := rfl
  cases resolved : resolveDimension e o service with
  | mk answer reached =>
      cases answer with
      | error failure => simp only [transcript, create, same, resolved]
      | ok dimension =>
          by_cases none : dimension = 0
          · simp only [transcript, create, same, resolved, if_pos none]
          · obtain ⟨s, w, t, w', created, created', twins⟩ :=
              exists_twins inMemory makes leads roomy other none resolved
            obtain ⟨size, backendSize⟩ := twins.sizes
            rw [transcript, transcript, created, created']
            dsimp only
            rw [twins.alike.metric, twins.alike.dimension, size, backendSize,
              twins.converse e obliging]

end Fresh

/-! ### A device that takes a byte at a time -/

/-- The device that takes one byte of every request. -/
def oneByOne : Device where
  write := fun _ _ _ => .ok 1

/-- A batch that breaks off at its second document, and what is found then. -/
def mixedCalls : List Call :=
  [.request (.documents oneByOne
      [{ content := "north" }, { content := "south" }, { content := "east" }]),
    .request (.search "east" 0 none), .request (.texts oneByOne ["east"] none),
    .request (.search "east" 2 none), .document 1]

theorem transcript_withPath_sample : ∃ seen,
    transcript sampleEmbedder durableOptions ⟨(), {}⟩ mixedCalls = .ok seen ∧
    transcript sampleEmbedder { durableOptions with path := none } ⟨(), {}⟩ mixedCalls =
      .ok seen := by
  have takes : oneByOne.Obliging := ⟨rfl, rfl, fun _ _ _ _ => ⟨0, rfl⟩, rfl⟩
  have obliging : ∀ call ∈ mixedCalls, call.Obliging := by
    simp [mixedCalls, Call.Obliging, takes]
  have inMemory : transcript sampleEmbedder { durableOptions with path := none } ⟨(), {}⟩
      mixedCalls = .ok _ := rfl
  exact ⟨_, (transcript_withPath (o := { durableOptions with path := none }) rfl rfl rfl
    (by decide) sampleEmbedder () {} obliging).trans inMemory, inMemory⟩

end Store

end Retrieval
