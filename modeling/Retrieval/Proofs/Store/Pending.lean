/-
# Retrieval.Proofs.Store.Pending -- what is pending after a request

Documents are entered one after the other (`Store.Commits`).  A request to enter documents
takes one of five ways (`Store.Enters`), and succeeds on two of them.  After a flush
nothing is pending, whatever had failed before.  But a request to enter no documents is
answered before anything is flushed, and leaves pending what was (`Store.pending_of_added`).

That contradicts what is promised of the count, that it is zero after every success:
`Store.nothing_added_keeps_pending` is a store in which it is not.
-/
import Retrieval.Proofs.Store.Scores

namespace Retrieval

set_option autoImplicit false

namespace Backend

theorem flush_pending {b after : Backend} {device : Device} {disk disk' : Disk}
    (done : b.flush device disk = (disk', after, none)) : after.pending = 0 := by
  cases b with
  | ephemeral index =>
      cases done
      rfl
  | durable c =>
      cases flushed : c.flushAt device disk with
      | mk g result =>
          obtain ⟨c', failure⟩ := result
          rw [flush, flushed] at done
          cases done
          rw [Collection.flushAt_clears flushed]
          rfl

end Backend

namespace Store

variable {σ : Type} {e : Embedder σ} {device : Device} {s s' : Store} {w w' : World σ}
variable {ids : List DocumentId}

theorem persist_pending {disk disk' : Disk} (done : s.persist device disk = (disk', s', none)) :
    s'.pending = 0 := by
  cases flushed : s.backend.flush device disk with
  | mk reached result =>
      obtain ⟨b, failure⟩ := result
      rw [persist, flushed] at done
      cases failure with
      | some e => cases done
      | none =>
          cases done
          exact Backend.flush_pending flushed

/-! ## What a request to enter documents does -/

/-- The ways that documents with their embeddings are entered: there are none, the first
embedding is not valid, the backend refuses it, or it is entered and the rest follow. -/
inductive Commits :
    Store → List (Document × Embedding) → Except StoreError (List DocumentId) → Store → Prop
  | nothing (s : Store) : Commits s [] (.ok []) s
  | invalid {s : Store} {d : Document} {v : Embedding} {rest : List (Document × Embedding)}
      {fault : Embedding.Fault} (found : v.fault? s.dimension = some fault) :
      Commits s ((d, v) :: rest) (.error (.ofFault fault)) s
  | refused {s : Store} {d : Document} {v : Embedding} {rest : List (Document × Embedding)}
      {fault : Embedding.Fault} (valid : v.fault? s.dimension = none)
      (refused : s.backend.insert s.documents.nextId v = .error fault) :
      Commits s ((d, v) :: rest) (.error (.ofFault fault))
        { s with documents := s.documents.insert d }
  | entered {s s' : Store} {d : Document} {v : Embedding} {rest : List (Document × Embedding)}
      {backend : Backend} {outcome : Except StoreError (List DocumentId)}
      (valid : v.fault? s.dimension = none)
      (inserted : s.backend.insert s.documents.nextId v = .ok backend)
      (later : Commits { s with documents := s.documents.insert d, backend } rest outcome s') :
      Commits s ((d, v) :: rest) (outcome.map (s.documents.nextId :: ·)) s'

theorem commits_commit (s : Store) (pairs : List (Document × Embedding)) :
    Commits s pairs (s.commit pairs).1 (s.commit pairs).2 := by
  induction pairs generalizing s with
  | nil => exact .nothing s
  | cons pair rest ih =>
      obtain ⟨d, v⟩ := pair
      cases fault : v.fault? s.dimension with
      | some f =>
          simp only [commit, fault]
          exact .invalid fault
      | none =>
          cases inserted : s.backend.insert s.documents.nextId v with
          | error f =>
              simp only [commit, fault, inserted]
              exact .refused fault inserted
          | ok backend =>
              simp only [commit, fault, inserted]
              exact .entered fault inserted (ih _)

/-- The ways that a request to enter documents takes: it has no documents, is given no
embeddings, breaks off at one that is not valid, fails at the flush, or succeeds. -/
inductive Enters (e : Embedder σ) (device : Device) (documents : List Document) (s : Store)
    (w : World σ) : Except StoreError (List DocumentId) → Store → World σ → Prop
  | nothing (empty : documents = []) : Enters e device documents s w (.ok []) s w
  | unembedded {failure : EmbedderError} {service : σ} (nonempty : documents ≠ [])
      (embedded : e.batch (documents.map Document.content) w.service = (.error failure, service)) :
      Enters e device documents s w (.error (.embedding failure)) s { w with service }
  | brokenOff {vectors : List Embedding} {service : σ} {failure : StoreError} {s' : Store}
      (nonempty : documents ≠ [])
      (embedded : e.batch (documents.map Document.content) w.service = (.ok vectors, service))
      (committed : s.commit (documents.zip vectors) = (.error failure, s')) :
      Enters e device documents s w (.error failure) s' { w with service }
  | unflushed {vectors : List Embedding} {service : σ} {ids : List DocumentId} {s' last : Store}
      {disk : Disk} {failure : StoreError} (nonempty : documents ≠ [])
      (embedded : e.batch (documents.map Document.content) w.service = (.ok vectors, service))
      (committed : s.commit (documents.zip vectors) = (.ok ids, s'))
      (persisted : s'.persist device w.disk = (disk, last, some failure)) :
      Enters e device documents s w (.error failure) last ⟨service, disk⟩
  | entered {vectors : List Embedding} {service : σ} {ids : List DocumentId} {s' last : Store}
      {disk : Disk} (nonempty : documents ≠ [])
      (embedded : e.batch (documents.map Document.content) w.service = (.ok vectors, service))
      (committed : s.commit (documents.zip vectors) = (.ok ids, s'))
      (persisted : s'.persist device w.disk = (disk, last, none)) :
      Enters e device documents s w (.ok ids) last ⟨service, disk⟩

/-- **A request to enter documents takes one of these ways.** -/
theorem enters_of_addDocuments {documents : List Document}
    {answer : Except StoreError (List DocumentId)}
    (done : addDocuments e device documents s w = (answer, s', w')) :
    Enters e device documents s w answer s' w' := by
  unfold addDocuments at done
  by_cases empty : documents.isEmpty
  · rw [if_pos empty] at done
    cases done
    exact .nothing (List.isEmpty_iff.1 empty)
  have nonempty : documents ≠ [] := fun none => empty (List.isEmpty_iff.2 none)
  rw [if_neg empty] at done
  cases embedded : e.batch (documents.map Document.content) w.service with
  | mk vectors? service =>
      rw [embedded] at done
      cases vectors? with
      | error failure =>
          cases done
          exact .unembedded nonempty embedded
      | ok vectors =>
          cases committed : s.commit (documents.zip vectors) with
          | mk ids? after =>
              simp only [committed] at done
              cases ids? with
              | error failure =>
                  cases done
                  exact .brokenOff nonempty embedded committed
              | ok ids =>
                  cases persisted : after.persist device w.disk with
                  | mk disk result =>
                      obtain ⟨last, failure?⟩ := result
                      simp only [persisted] at done
                      cases failure? with
                      | some failure =>
                          cases done
                          exact .unflushed nonempty embedded committed persisted
                      | none =>
                          cases done
                          exact .entered nonempty embedded committed persisted

/-- Documents that are entered with success are flushed; without documents nothing happens. -/
theorem addDocuments_ok {documents : List Document}
    (added : addDocuments e device documents s w = (.ok ids, s', w')) :
    documents = [] ∧ s' = s ∧ w' = w ∨ documents ≠ [] ∧ s'.pending = 0 := by
  cases enters_of_addDocuments added with
  | nothing empty => exact .inl ⟨empty, rfl, rfl⟩
  | entered nonempty embedded committed persisted =>
      exact .inr ⟨nonempty, persist_pending persisted⟩

theorem toDocuments_isEmpty {texts : List String} {metadatas : Option (List Metadata)}
    {documents : List Document} (done : toDocuments texts metadatas = .ok documents) :
    documents.isEmpty = texts.isEmpty := by
  cases metadatas with
  | none =>
      cases done
      cases texts <;> rfl
  | some metadatas =>
      simp only [toDocuments] at done
      split at done
      · rename_i lengths
        cases done
        cases texts with
        | nil =>
            rw [List.zipWith_nil_left]
            rfl
        | cons text texts =>
            obtain ⟨metadata, rest, rfl⟩ := List.exists_cons_of_length_eq_add_one lengths
            rfl
      · cases done

/-- **When nothing is pending.**  After documents or texts were entered with success the
count is zero; when there were none to enter, it is what it was before. -/
theorem pending_of_added (e : Embedder σ) (device : Device) (s : Store) (w : World σ) :
    (∀ documents ids s' w', addDocuments e device documents s w = (.ok ids, s', w') →
      s'.pending = if documents.isEmpty then s.pending else 0) ∧
    (∀ texts metadatas ids s' w', addTexts e device texts metadatas s w = (.ok ids, s', w') →
      s'.pending = if texts.isEmpty then s.pending else 0) := by
  have documentsCase : ∀ documents ids s' w',
      addDocuments e device documents s w = (.ok ids, s', w') →
        s'.pending = if documents.isEmpty then s.pending else 0 := by
    intro documents ids s' w' added
    rcases addDocuments_ok added with ⟨rfl, rfl, -⟩ | ⟨nonempty, none⟩
    · rfl
    · rw [none, if_neg fun empty => nonempty (List.isEmpty_iff.1 empty)]
  refine ⟨documentsCase, ?_⟩
  intro texts metadatas ids s' w' added
  unfold addTexts at added
  split at added
  · cases added
  · rename_i documents made
    rw [documentsCase documents ids s' w' added, toDocuments_isEmpty made]

/-! ### A store with a failed batch -/

/-- The options for a store on disk. -/
def durableOptions : Options := { metric := .euclidean, dimension := some 2, path := some "c" }

/-- What is seen of a store that was just made on an empty disk. -/
def ofFresh {α : Type} (see : Store → World Unit → α) : Option α :=
  match create sampleEmbedder durableOptions ⟨(), {}⟩ with
  | (.ok s, w) => some (see s w)
  | (.error _, _) => none

/-- The second text has no valid embedding. -/
def failedBatch (s : Store) (w : World Unit) :
    Except StoreError (List DocumentId) × Store × World Unit :=
  addTexts sampleEmbedder .reliable ["north", "south"] none s w

theorem exists_fresh {α : Type} {see : Store → World Unit → α} {seen : α}
    (observed : ofFresh see = some seen) :
    ∃ s w, create sampleEmbedder durableOptions ⟨(), {}⟩ = (.ok s, w) ∧ see s w = seen := by
  unfold ofFresh at observed
  split at observed
  · rename_i s w created
    exact ⟨s, w, created, Option.some.inj observed⟩
  · cases observed

/-- **A request that adds nothing succeeds with something pending.** -/
theorem nothing_added_keeps_pending : ∃ s₀ w₀ s₁ w₁ failure,
    create sampleEmbedder durableOptions ⟨(), {}⟩ = (.ok s₀, w₀) ∧
    addTexts sampleEmbedder .reliable ["north", "south"] none s₀ w₀ = (.error failure, s₁, w₁) ∧
    addTexts sampleEmbedder .reliable [] none s₁ w₁ = (.ok [], s₁, w₁) ∧ s₁.pending = 1 := by
  have observed : ofFresh (fun s w =>
      ((failedBatch s w).1.toOption.isSome, (failedBatch s w).2.1.pending)) = some (false, 1) := by
    decide +kernel
  obtain ⟨s₀, w₀, created, seen⟩ := exists_fresh observed
  cases batch : failedBatch s₀ w₀ with
  | mk answer rest =>
      obtain ⟨s₁, w₁⟩ := rest
      rw [batch] at seen
      cases answer with
      | ok ids => cases seen
      | error failure =>
          exact ⟨s₀, w₀, s₁, w₁, failure, created, batch, rfl, congrArg Prod.snd seen⟩

/-- With documents the next success drains what the failed batch left. -/
theorem pending_of_added_sample : ∃ s₀ w₀ s₁ w₁ ids s₂ w₂,
    create sampleEmbedder durableOptions ⟨(), {}⟩ = (.ok s₀, w₀) ∧
    (addTexts sampleEmbedder .reliable ["north", "south"] none s₀ w₀).2 = (s₁, w₁) ∧
    s₁.pending = 1 ∧
    addDocuments sampleEmbedder .reliable [{ content := "east" }] s₁ w₁ = (.ok ids, s₂, w₂) ∧
    s₂.pending = 0 := by
  have observed : ofFresh (fun s w => ((failedBatch s w).2.1.pending,
      (addDocuments sampleEmbedder .reliable [{ content := "east" }] (failedBatch s w).2.1
        (failedBatch s w).2.2).1.toOption.isSome)) = some (1, true) := by
    decide +kernel
  obtain ⟨s₀, w₀, created, seen⟩ := exists_fresh observed
  obtain ⟨pending, succeeds⟩ := Prod.mk.inj seen
  cases added : addDocuments sampleEmbedder .reliable [{ content := "east" }]
      (failedBatch s₀ w₀).2.1 (failedBatch s₀ w₀).2.2 with
  | mk answer rest =>
      obtain ⟨s₂, w₂⟩ := rest
      rw [added] at succeeds
      cases answer with
      | error failure => cases succeeds
      | ok ids =>
          exact ⟨s₀, w₀, _, _, ids, s₂, w₂, created, rfl, pending, added,
            (pending_of_added _ _ _ _).1 _ _ _ _ added⟩

end Store

end Retrieval
