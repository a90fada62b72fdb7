/-
# Retrieval.Proofs.Store.Numbering -- numbers are given once and documents never change

A call enters the first documents that it is given, all of them when it succeeds, and puts
them behind those that are there (`Store.Takes`).  So the numbers of a call begin with the
number of documents before it, and a call that failed has used up the numbers of what it
had entered.

Nothing else changes the table, so it only grows (`Store.converse_grows`), and a number
leads to the document it was given to in every later state (`Store.converse_numbers`).
-/
import Retrieval.Proofs.Store.Conversation
import Retrieval.Proofs.Store.Pending

namespace Retrieval

set_option autoImplicit false

theorem Embedder.length_batch {σ : Type} {e : Embedder σ} {texts : List String}
    {service after : σ} {vectors : List Embedding}
    (embedded : e.batch texts service = (.ok vectors, after)) :
    vectors.length = texts.length := by
  unfold batch at embedded
  split at embedded
  · cases embedded
  · split at embedded
    · rename_i count
      cases embedded
      exact count
    · cases embedded

namespace Store

variable {σ : Type} {e : Embedder σ} {device : Device} {s s' : Store} {w w' : World σ}

/-- The numbers from one on. -/
def numbersFrom (first count : Nat) : List DocumentId :=
  (List.range' first count).map UInt64.ofNat

theorem numbersFrom_succ (first count : Nat) :
    numbersFrom first (count + 1) = UInt64.ofNat first :: numbersFrom (first + 1) count := by
  rw [numbersFrom, List.range'_succ, List.map_cons, ← numbersFrom]

theorem mem_numbersFrom {first count : Nat} {id : DocumentId} :
    id ∈ numbersFrom first count ↔
      ∃ n, (first ≤ n ∧ n < first + count) ∧ UInt64.ofNat n = id := by
  simp [numbersFrom, List.mem_range'_1]

/-! ## Entering documents -/

/-- Some first of the documents have come into the table, behind those that were there: on
success all of them, and the outcome lists their numbers. -/
def Takes (s : Store) (documents : List Document) (outcome : Except StoreError (List DocumentId))
    (s' : Store) : Prop :=
  ∃ taken, taken ≤ documents.length ∧
    s'.documents.entries.toList = s.documents.entries.toList ++ documents.take taken ∧
    ∀ ids, outcome = .ok ids → taken = documents.length ∧ ids = numbersFrom s.size taken

theorem takes_nothing (s : Store) (documents : List Document) (failure : StoreError) :
    Takes s documents (.error failure) s := by
  refine ⟨0, Nat.zero_le _, by simp, ?_⟩
  intro ids done
  cases done

/-- What failed later has taken its documents all the same. -/
theorem Takes.fail {documents : List Document} {outcome : Except StoreError (List DocumentId)}
    (takes : Takes s documents outcome s') (failure : StoreError) :
    Takes s documents (.error failure) s' := by
  obtain ⟨taken, within, table, -⟩ := takes
  refine ⟨taken, within, table, ?_⟩
  intro ids done
  cases done

theorem Commits.takes {pairs : List (Document × Embedding)}
    {outcome : Except StoreError (List DocumentId)} (commits : Commits s pairs outcome s') :
    Takes s (pairs.map Prod.fst) outcome s' := by
  induction commits with
  | nothing s =>
      refine ⟨0, Nat.le_refl _, by simp, ?_⟩
      intro ids done
      cases done
      exact ⟨rfl, rfl⟩
  | invalid found => exact takes_nothing _ _ _
  | refused valid refused =>
      -- the document is in the table before the backend is asked
      refine ⟨1, by simp, by simp [Documents.insert], ?_⟩
      intro ids done
      cases done
  | @entered s s' d v rest backend outcome valid inserted later ih =>
      obtain ⟨taken, within, table, numbers⟩ := ih
      refine ⟨taken + 1, by simpa using within, ?_, ?_⟩
      · rw [table]
        simp [Documents.insert]
      · intro ids done
        cases outcome with
        | error failure => cases done
        | ok more =>
            cases done
            obtain ⟨rfl, rfl⟩ := numbers more rfl
            refine ⟨rfl, ?_⟩
            show s.documents.nextId :: numbersFrom (s.documents.insert d).size _ = _
            rw [Documents.size_insert]
            exact (numbersFrom_succ _ _).symm

/-- **Documents are entered in this manner whatever the outcome,** also when the flush fails. -/
theorem addDocuments_takes (e : Embedder σ) (device : Device) (documents : List Document)
    (s : Store) (w : World σ) :
    Takes s documents (addDocuments e device documents s w).1
      (addDocuments e device documents s w).2.1 := by
  have entered {vectors : List Embedding} {service : σ} {outcome} {s₁ : Store}
      (embedded : e.batch (documents.map Document.content) w.service = (.ok vectors, service))
      (committed : s.commit (documents.zip vectors) = (outcome, s₁)) :
      Takes s documents outcome s₁ := by
    have takes := (s.commits_commit (documents.zip vectors)).takes
    have count := Embedder.length_batch embedded
    rw [List.length_map] at count
    rwa [committed, List.map_fst_zip (Nat.le_of_eq count.symm)] at takes
  have flushed {s₁ s₂ : Store} {disk failure}
      (persisted : s₁.persist device w.disk = (disk, s₂, failure)) :
      s₂.documents = s₁.documents := by
    have same : (s₁.persist device w.disk).2.1.documents = s₁.documents := rfl
    rwa [persisted] at same
  cases done : addDocuments e device documents s w with
  | mk outcome rest =>
      obtain ⟨s', w'⟩ := rest
      cases enters_of_addDocuments done with
      | nothing empty =>
          subst empty
          refine ⟨0, Nat.le_refl _, by simp, ?_⟩
          intro ids done
          cases done
          exact ⟨rfl, rfl⟩
      | unembedded nonempty embedded => exact takes_nothing s _ _
      | brokenOff nonempty embedded committed => exact entered embedded committed
      | unflushed nonempty embedded committed persisted =>
          have takes := (entered embedded committed).fail
          simp only [Takes, ← flushed persisted] at takes
          exact takes _
      | entered nonempty embedded committed persisted =>
          have takes := entered embedded committed
          rwa [Takes, ← flushed persisted] at takes

/-! ## Texts and documents -/

/-- Texts are entered as the documents that they make with their metadata. -/
theorem toDocuments_given {contents : List String} {metadatas : Option (List Metadata)}
    {documents : List Document} (made : toDocuments contents metadatas = .ok documents)
    (device : Device) :
    documents.length = contents.length ∧
      ∀ i, documents[i]? = Call.given (.request (.texts device contents metadatas)) i := by
  cases metadatas with
  | none =>
      cases made
      refine ⟨List.length_map _, ?_⟩
      intro i
      simp [Call.given]
  | some metadatas =>
      simp only [toDocuments] at made
      split at made
      · rename_i lengths
        cases made
        refine ⟨by simp [lengths], ?_⟩
        intro i
        rw [List.getElem?_zipWith]
        cases found : contents[i]? with
        | none => simp [Call.given, found]
        | some content =>
            have inside : i < metadatas.length := by
              rw [lengths]
              exact (List.getElem?_eq_some_iff.1 found).1
            simp [Call.given, found, List.getElem?_eq_getElem inside]
      · cases made

/-- **Documents are entered as their texts with their metadata:** taking them apart and
putting them together again gives the same documents. -/
theorem addTexts_split (e : Embedder σ) (device : Device) (documents : List Document)
    (s : Store) (w : World σ) :
    addTexts e device (documents.map Document.content) (some (documents.map Document.metadata))
      s w = addDocuments e device documents s w := by
  have again : toDocuments (documents.map Document.content)
      (some (documents.map Document.metadata)) = .ok documents := by
    rw [toDocuments, if_pos (by simp), List.zipWith_map]
    simp
  rw [addTexts, again]

/-! ## One call -/

/-- A call has entered the first `taken` documents that it is given, behind those that were
there, and told their numbers if it has entered all. -/
structure Entered (call : Call) (s : Store) (answer : Answer) (s' : Store) (taken : Nat) :
    Prop where
  within : taken ≤ call.count
  size_eq : s'.size = s.size + taken
  isPrefix : s.documents.entries.toList <+: s'.documents.entries.toList
  here : ∀ i < taken, s'.documents.entries[s.size + i]? = call.given i
  told : ∀ texts, answer = .entered (.ok texts) →
    taken = call.count ∧ texts = (numbersFrom s.size taken).map DocumentId.text

/-- A call that leaves the store as it is, and tells no numbers. -/
theorem entered_nothing (call : Call) (s : Store) {answer : Answer}
    (silent : ∀ texts, answer ≠ .entered (.ok texts)) : Entered call s answer s 0 where
  within := Nat.zero_le _
  size_eq := rfl
  isPrefix := List.prefix_rfl
  here := fun i none => absurd none (Nat.not_lt_zero i)
  told := fun texts told => absurd told (silent texts)

/-- What is taken of documents that a call is given. -/
theorem Takes.entered {call : Call} {documents : List Document}
    {outcome : Except StoreError (List DocumentId)} (takes : Takes s documents outcome s')
    (count : documents.length = call.count) (given : ∀ i, documents[i]? = call.given i) :
    ∃ taken, Entered call s (.entered (outcome.map (List.map DocumentId.text))) s' taken := by
  obtain ⟨taken, within, table, numbers⟩ := takes
  have length := congrArg List.length table
  rw [List.length_append, List.length_take, Nat.min_eq_left within, Array.length_toList,
    Array.length_toList] at length
  refine ⟨taken, count ▸ within, length, table ▸ List.prefix_append _ _, ?_, ?_⟩
  · intro i inside
    have start : s.size = s.documents.entries.toList.length := by
      rw [size, Documents.size, Array.length_toList]
    rw [← Array.getElem?_toList, table, start, List.getElem?_append_right (Nat.le_add_right _ _),
      Nat.add_sub_cancel_left, List.getElem?_take_of_lt inside, given]
  · intro texts told
    cases outcome with
    | error failure => cases told
    | ok ids =>
        cases told
        obtain ⟨all, rfl⟩ := numbers ids rfl
        exact ⟨all.trans count, rfl⟩

/-- **Every call enters some first of the documents it is given.** -/
theorem respond_entered (e : Embedder σ) (s : Store) (w : World σ) (call : Call) :
    ∃ taken, Entered call s (s.respond e w call).1 (s.respond e w call).2.1 taken := by
  cases call with
  | document id => exact ⟨0, entered_nothing _ s (by simp [respond])⟩
  | request r =>
      cases r with
      | texts device contents metadatas =>
          simp only [respond, addTexts]
          cases made : toDocuments contents metadatas with
          | error failure => exact ⟨0, entered_nothing _ s (by simp [Except.map])⟩
          | ok documents =>
              obtain ⟨count, given⟩ := toDocuments_given made device
              exact (addDocuments_takes e device documents s w).entered count given
      | documents device documents =>
          exact (addDocuments_takes e device documents s w).entered rfl fun _ => rfl
      | search query k filter => exact ⟨0, entered_nothing _ s (by simp [respond])⟩
      | searchBatch queries k => exact ⟨0, entered_nothing _ s (by simp [respond])⟩

/-! ## Calls in a row -/

theorem size_eq_length (s : Store) : s.size = s.documents.entries.toList.length :=
  Array.length_toList.symm

theorem size_le_of_isPrefix
    (grown : s.documents.entries.toList <+: s'.documents.entries.toList) : s.size ≤ s'.size := by
  rw [size_eq_length, size_eq_length]
  exact grown.length_le

/-- **The table only grows,** and the numbers that are told are of what has come since. -/
theorem converse_grows (e : Embedder σ) (s : Store) (w : World σ) (calls : List Call) :
    s.documents.entries.toList <+: (s.converse e w calls).2.1.documents.entries.toList ∧
      ∀ x ∈ (s.converse e w calls).1, ∀ texts, x.answer = .entered (.ok texts) →
        ∀ text ∈ texts, ∃ n, s.size ≤ n ∧ n < (s.converse e w calls).2.1.size ∧
          text = DocumentId.text (UInt64.ofNat n) := by
  induction calls generalizing s w with
  | nil =>
      refine ⟨List.prefix_rfl, ?_⟩
      intro x member
      cases member
  | cons call rest ih =>
      obtain ⟨taken, entered⟩ := respond_entered e s w call
      obtain ⟨grown, numbers⟩ := ih (s.respond e w call).2.1 (s.respond e w call).2.2
      have size := entered.size_eq
      have larger := size_le_of_isPrefix grown
      rw [converse_cons]
      dsimp only
      refine ⟨entered.isPrefix.trans grown, ?_⟩
      intro x member texts told text isText
      rcases List.mem_cons.1 member with rfl | later
      · -- what this call was told is of what it has entered
        obtain ⟨all, rfl⟩ := entered.told texts told
        obtain ⟨id, isNumber, rfl⟩ := List.mem_map.1 isText
        obtain ⟨n, inside, rfl⟩ := mem_numbersFrom.1 isNumber
        exact ⟨n, inside.1, by omega, rfl⟩
      · obtain ⟨n, low, high, rfl⟩ := numbers x later texts told text isText
        exact ⟨n, by omega, high, rfl⟩

/-- A call in a row enters documents, and what is there then is there in the end. -/
theorem Turn.entered {before after : Store} {call : Call} {answer : Answer} {calls : List Call}
    (turn : Turn e s w calls before call answer after) :
    (∃ taken, Entered call before answer after taken) ∧
      after.documents.entries.toList <+: (s.converse e w calls).2.1.documents.entries.toList := by
  induction turn with
  | first s w call rest =>
      refine ⟨respond_entered e s w call, ?_⟩
      exact (converse_grows e (s.respond e w call).2.1 (s.respond e w call).2.2 rest).1
  | later earlier turn ih => exact ih

/-- Every number that comes into use is given by one of the calls. -/
theorem exists_turn (e : Embedder σ) (s : Store) (w : World σ) (calls : List Call) {n : Nat}
    (low : s.size ≤ n) (high : n < (s.converse e w calls).2.1.size) :
    ∃ before call answer after, Turn e s w calls before call answer after ∧
      before.size ≤ n ∧ n < after.size := by
  induction calls generalizing s w with
  | nil => exact absurd high (Nat.not_lt.2 low)
  | cons call rest ih =>
      by_cases here : n < (s.respond e w call).2.1.size
      · exact ⟨s, call, _, _, .first s w call rest, low, here⟩
      · obtain ⟨before, call', answer, after, turn, inside⟩ := ih _ _ (Nat.not_lt.1 here) high
        exact ⟨before, call', answer, after, .later call turn, inside⟩

/-- Later numbers are greater. -/
theorem converse_pairwise (e : Embedder σ) (s : Store) (w : World σ) (calls : List Call)
    (fits : (s.converse e w calls).2.1.size ≤ UInt64.size) :
    (s.converse e w calls).1.Pairwise fun x y =>
      ∀ texts texts', x.answer = .entered (.ok texts) → y.answer = .entered (.ok texts') →
        ∀ m n : Nat, m.repr ∈ texts → n.repr ∈ texts' → m < n := by
  induction calls generalizing s w with
  | nil => exact .nil
  | cons call rest ih =>
      obtain ⟨taken, entered⟩ := respond_entered e s w call
      obtain ⟨grown, numbers⟩ :=
        converse_grows e (s.respond e w call).2.1 (s.respond e w call).2.2 rest
      have size := entered.size_eq
      have larger := size_le_of_isPrefix grown
      rw [converse_cons] at fits ⊢
      dsimp only at fits
      refine .cons ?_ (ih _ _ fits)
      intro y member texts texts' told told' m n isText isText'
      obtain ⟨-, rfl⟩ := entered.told texts told
      obtain ⟨id, isNumber, same⟩ := List.mem_map.1 isText
      obtain ⟨m', inside, rfl⟩ := mem_numbersFrom.1 isNumber
      obtain ⟨n', low, high, same'⟩ := numbers y member texts' told' _ isText'
      have first := (DocumentId.text_ofNat_eq_repr_iff (by omega)).1 same
      have second := (DocumentId.text_ofNat_eq_repr_iff (by omega)).1 same'.symm
      omega

/-- **Numbers are given once, and documents never change.**  A store was made and calls are
answered, some with success and some not.  Each call enters some first of the documents it
is given.  When it succeeds it enters all of them and tells their numbers in decimal, which
begin with how many documents there were, and what is told later is greater.  In the end
every number leads to the document that it was given to, and a number that was not given
leads to nothing; this is what is answered to who asks for a document, and the store stays
as it is.  The calls may end anywhere, so this is so in every state after a call. -/
theorem converse_numbers {o : Options} {s₀ last : Store} {w₀ w₁ : World σ}
    (created : create e o w = (.ok s₀, w₀)) {calls : List Call} {exchanges : List Exchange}
    (conversed : s₀.converse e w₀ calls = (exchanges, last, w₁))
    (fits : last.size ≤ UInt64.size) :
    (∀ before call answer after, Turn e s₀ w₀ calls before call answer after →
      ∃ taken, taken ≤ call.count ∧ after.size = before.size + taken ∧
        (∀ texts, answer = .entered (.ok texts) →
          taken = call.count ∧ texts = (List.range' before.size call.count).map Nat.repr) ∧
        ∀ i < taken, last.documents.get? (UInt64.ofNat (before.size + i)) = call.given i ∧
          ∀ w', last.respond e w' (.document (UInt64.ofNat (before.size + i))) =
            (.document (call.given i), last, w')) ∧
    (exchanges.Pairwise fun x y =>
      ∀ texts texts', x.answer = .entered (.ok texts) → y.answer = .entered (.ok texts') →
        ∀ m n : Nat, m.repr ∈ texts → n.repr ∈ texts' → m < n) ∧
    ∀ id, ((last.documents.get? id).isSome ↔
        ∃ before call answer after, Turn e s₀ w₀ calls before call answer after ∧
          before.size ≤ id.toNat ∧ id.toNat < after.size) ∧
      ∀ w', last.respond e w' (.document id) = (.document none, last, w') ↔
        ¬ ∃ before call answer after, Turn e s₀ w₀ calls before call answer after ∧
          before.size ≤ id.toNat ∧ id.toNat < after.size := by
  have empty : s₀.size = 0 := (create_agrees created).1.size_eq
  have reached : (s₀.converse e w₀ calls).2.1 = last := by rw [conversed]
  have given (id : DocumentId) : (last.documents.get? id).isSome ↔
      ∃ before call answer after, Turn e s₀ w₀ calls before call answer after ∧
        before.size ≤ id.toNat ∧ id.toNat < after.size := by
    rw [Documents.get?, isSome_getElem?]
    constructor
    · intro below
      exact exists_turn e s₀ w₀ calls (empty ▸ Nat.zero_le _) (reached ▸ below)
    · rintro ⟨before, call, answer, after, turn, -, below⟩
      have grown := size_le_of_isPrefix turn.entered.2
      rw [reached] at grown
      exact Nat.lt_of_lt_of_le below grown
  refine ⟨?_, ?_, fun id => ⟨given id, fun w' => ?_⟩⟩
  · intro before call answer after turn
    obtain ⟨⟨taken, entered⟩, rest, grown⟩ := turn.entered
    rw [reached] at grown
    have size := entered.size_eq
    have larger := size_le_of_isPrefix ⟨rest, grown⟩
    refine ⟨taken, entered.within, size, ?_, ?_⟩
    · intro texts told
      obtain ⟨all, rfl⟩ := entered.told texts told
      refine ⟨all, ?_⟩
      rw [← all, numbersFrom, List.map_map]
      apply List.map_congr_left
      intro n member
      have inside := List.mem_range'_1.1 member
      exact DocumentId.text_ofNat (by omega)
    · intro i here
      have small : before.size + i < UInt64.size := by omega
      have there : before.size + i < after.documents.entries.toList.length := by
        rw [← size_eq_length]
        omega
      have found : last.documents.get? (UInt64.ofNat (before.size + i)) = call.given i := by
        rw [Documents.get?, UInt64.toNat_ofNat_of_lt' small, ← Array.getElem?_toList, ← grown,
          List.getElem?_append_left there, Array.getElem?_toList, entered.here i here]
      exact ⟨found, fun w' => by rw [respond, found]⟩
  · have pairwise := converse_pairwise e s₀ w₀ calls (reached ▸ fits)
    rwa [conversed] at pairwise
  · rw [← given id]
    simp [respond]

/-! ### A number that a failed call has used up -/

/-- The second of three documents is not valid; then comes a text. -/
def numberedCalls : List Call :=
  [.request (.documents .reliable
      [{ content := "north" }, { content := "south" }, { content := "east" }]),
    .request (.texts .reliable ["east"] none)]

/-- The text gets the number behind that of the one document that was entered. -/
theorem converse_numbers_sample : ∃ exchanges last w₁,
    create sampleEmbedder { metric := .euclidean, dimension := some 2, path := some "c" }
        ⟨(), Collection.shelf ⟨2, .euclidean⟩ (Log.bytes oldLog)⟩ =
      (.ok sampleStore, ⟨(), sampleDisk⟩) ∧
    sampleStore.converse sampleEmbedder ⟨(), sampleDisk⟩ numberedCalls = (exchanges, last, w₁) ∧
    last.size = 2 ∧ last.documents.get? 1 = some { content := "east" } ∧
    (last.respond sampleEmbedder w₁ (.document 1)).1 =
      .document (some { content := "east" }) := by
  have sizes : (sampleStore.respond sampleEmbedder ⟨(), sampleDisk⟩
        (.request (.documents .reliable
          [{ content := "north" }, { content := "south" }, { content := "east" }]))).2.1.size = 1 ∧
      (sampleStore.converse sampleEmbedder ⟨(), sampleDisk⟩ numberedCalls).2.1.size = 2 := by
    decide +kernel
  obtain ⟨first, second⟩ := sizes
  cases conversed : sampleStore.converse sampleEmbedder ⟨(), sampleDisk⟩ numberedCalls with
  | mk exchanges rest =>
      obtain ⟨last, w₁⟩ := rest
      have reached : (sampleStore.converse sampleEmbedder ⟨(), sampleDisk⟩ numberedCalls).2.1 =
          last := by rw [conversed]
      have fits : last.size ≤ UInt64.size := by
        rw [← reached, second]
        decide
      obtain ⟨entered, -⟩ := converse_numbers create_sample conversed fits
      obtain ⟨taken, -, size, -, here⟩ := entered _ _ _ _ (.later _ (.first _ _ _ _))
      have one : 0 < taken := by
        have total := second
        rw [numberedCalls, converse_cons, converse_cons, converse] at total
        dsimp only at total
        rw [size, first] at total
        omega
      obtain ⟨found, answered⟩ := here 0 one
      rw [first] at found answered
      exact ⟨exchanges, last, w₁, create_sample, rfl, reached ▸ second, found,
        congrArg Prod.fst (answered w₁)⟩

end Store

end Retrieval
