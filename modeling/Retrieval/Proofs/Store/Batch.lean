/-
# Retrieval.Proofs.Store.Batch -- a batch of searches is its searches

A batch of searches has all queries embedded in one call, checks all embeddings, and only
then looks for each.  A single search does all of this for its own query.  They come to the
same if the embedder gives a batch what it gives the texts one by one
(`Embedder.Consistent`): the batch succeeds exactly when each of the searches does, and then
answers what they answer (`Store.searchBatch_agrees`).

An embedder has a state, so with every text goes the state in which it is embedded alone.
One without a batch call of its own is consistent when these are the states that it passes
through (`Embedder.consistent_ofOne`).
-/
import Retrieval.Proofs.Store.Filtered

namespace Retrieval

set_option autoImplicit false

/-! ## Lists in step -/

section Lists

variable {α β γ : Type} {xs : List α} {zs : List γ} {R : α → β → Prop} {S : β → γ → Prop}

/-- Two steps for every element, one after the other, are two lists of steps. -/
theorem forall₂_comp_iff :
    List.Forall₂ (fun x z => ∃ y, R x y ∧ S y z) xs zs ↔
      ∃ ys, List.Forall₂ R xs ys ∧ List.Forall₂ S ys zs := by
  constructor
  · intro every
    induction every with
    | nil => exact ⟨[], .nil, .nil⟩
    | cons first later ih =>
        obtain ⟨y, there, onward⟩ := first
        obtain ⟨ys, allThere, allOnward⟩ := ih
        exact ⟨y :: ys, .cons there allThere, .cons onward allOnward⟩
  · rintro ⟨ys, allThere, allOnward⟩
    induction allThere generalizing zs with
    | nil =>
        cases allOnward
        exact .nil
    | cons there _ ih =>
        cases allOnward with
        | cons onward later => exact .cons ⟨_, there, onward⟩ (ih later)

/-- Every element has a partner exactly when there is a list of partners. -/
theorem exists_forall₂_iff : (∃ ys, List.Forall₂ R xs ys) ↔ ∀ x ∈ xs, ∃ y, R x y := by
  induction xs with
  | nil => simp
  | cons x xs ih => simp [List.forall₂_cons_left_iff, ← ih]

end Lists

/-! ## Embedders -/

namespace Embedder

variable {σ : Type} {e : Embedder σ} {service : σ} {asked : List (String × σ)}
variable {vectors : List Embedding}

/-- The embedder gives each of the texts, in the state beside it, this vector. -/
def GivesEach (e : Embedder σ) (asked : List (String × σ)) (vectors : List Embedding) : Prop :=
  List.Forall₂ (fun text v => (e.one text.1 text.2).1 = .ok v) asked vectors

/-- A batch of the texts is given the vectors that the texts are given one by one, in the
states beside them, and fails exactly when one of them fails. -/
def Consistent (e : Embedder σ) (asked : List (String × σ)) (service : σ) : Prop :=
  ∀ vectors, (e.many (asked.map Prod.fst) service).1 = .ok vectors ↔ e.GivesEach asked vectors

/-- The count of what a consistent embedder gives is right. -/
theorem Consistent.batch_eq_ok_iff (consistent : e.Consistent asked service) :
    (e.batch (asked.map Prod.fst) service).1 = .ok vectors ↔ e.GivesEach asked vectors := by
  rw [← consistent vectors, batch]
  cases answered : e.many (asked.map Prod.fst) service with
  | mk answer after =>
      cases answer with
      | error failure => simp
      | ok given =>
          have each : e.GivesEach asked given := (consistent given).1 (by rw [answered])
          have count : given.length = (asked.map Prod.fst).length := by
            rw [List.length_map, each.length_eq]
          simp [count]

/-- The texts, each with the state that finds it when they are embedded in turn. -/
def turns (one : String → σ → Except EmbedderError Embedding × σ) :
    List String → σ → List (String × σ)
  | [], _ => []
  | text :: rest, s => (text, s) :: turns one rest (one text s).2

variable {one : String → σ → Except EmbedderError Embedding × σ}

theorem map_fst_turns (texts : List String) (s : σ) : (turns one texts s).map Prod.fst = texts := by
  induction texts generalizing s with
  | nil => rfl
  | cons text rest ih => rw [turns, List.map_cons, ih]

theorem inTurn_cons_eq_ok_iff {text : String} {rest : List String} {s : σ} :
    (inTurn one (text :: rest) s).1 = .ok vectors ↔
      ∃ v vs, (one text s).1 = .ok v ∧ (inTurn one rest (one text s).2).1 = .ok vs ∧
        vectors = v :: vs := by
  rw [inTurn]
  cases one text s with
  | mk answer next =>
      cases answer with
      | error failure => simp
      | ok v =>
          dsimp only
          cases inTurn one rest next with
          | mk others last => cases others <;> simp [eq_comm]

theorem inTurn_eq_ok_iff {texts : List String} {s : σ} :
    (inTurn one texts s).1 = .ok vectors ↔
      (ofOne one).GivesEach (turns one texts s) vectors := by
  induction texts generalizing s vectors with
  | nil => simp [inTurn, turns, GivesEach, eq_comm]
  | cons text rest ih =>
      rw [inTurn_cons_eq_ok_iff, GivesEach, turns, List.forall₂_cons_left_iff]
      simp only [ih]
      rfl

/-- **An embedder without a batch call of its own is consistent.** -/
theorem consistent_ofOne (texts : List String) (s : σ) :
    (ofOne one).Consistent (turns one texts s) s := by
  intro vectors
  rw [map_fst_turns]
  exact inTurn_eq_ok_iff

end Embedder

namespace Store

variable {σ : Type} {e : Embedder σ} {s : Store} {k : Nat} {service : σ}
variable {asked : List (String × σ)} {answers : List (List (Document × Binary32))}

/-! ## Searches -/

/-- A search finds what is nearest to the embedding of its query. -/
theorem search_found_iff (positive : 1 ≤ k) {query : String} {filter : Option Filter}
    {answer : List (Document × Binary32)} :
    (s.search e query k filter service).1.map Report.found = .ok answer ↔
      ∃ v, (e.one query service).1 = .ok v ∧
        (s.nearest v k filter).map Report.found = .ok answer := by
  simp only [map_eq_ok_iff, search_eq_ok_iff positive]
  constructor
  · rintro ⟨report, ⟨v, embedded, found⟩, rfl⟩
    exact ⟨v, embedded, report, found, rfl⟩
  · rintro ⟨v, embedded, report, found, rfl⟩
    exact ⟨report, ⟨v, embedded, found⟩, rfl⟩

/-- Embeddings for which something is found pass the check of all of them. -/
theorem findSome?_fault?_of_nearest {vectors : List Embedding}
    (every : List.Forall₂ (fun v answer => (s.nearest v k none).map Report.found = .ok answer)
      vectors answers) :
    (vectors.findSome? fun v => v.fault? s.dimension) = none := by
  rw [List.findSome?_eq_none_iff]
  intro v member
  obtain ⟨answer, found⟩ := exists_forall₂_iff.1 ⟨answers, every⟩ v member
  obtain ⟨report, found, -⟩ := map_eq_ok_iff.1 found
  exact Embedding.fault?_eq_none_iff.2 (valid_of_nearest found)

/-- A batch of searches finds what is nearest to each of the embeddings of its queries. -/
theorem searchBatch_found_iff (positive : 1 ≤ k) {queries : List String} (nonempty : queries ≠ []) :
    (s.searchBatch e queries k service).1 = .ok answers ↔
      ∃ vectors, (e.batch queries service).1 = .ok vectors ∧
        List.Forall₂ (fun v answer => (s.nearest v k none).map Report.found = .ok answer)
          vectors answers := by
  constructor
  · intro found
    obtain ⟨vectors, ⟨empty, -⟩ | embedded, every⟩ := searchBatch_eq_ok (Prod.ext found rfl)
    · exact absurd empty nonempty
    · exact ⟨vectors, by rw [embedded], every.imp fun _ _ => map_eq_ok_iff.2⟩
  · rintro ⟨vectors, embedded, every⟩
    have some : k ≠ 0 := by omega
    cases answered : e.batch queries service with
    | mk answer after =>
        rw [answered] at embedded
        cases embedded
        rw [searchBatch, if_neg some, if_neg (mt List.isEmpty_iff.1 nonempty), answered]
        dsimp only
        rw [findSome?_fault?_of_nearest every]
        exact mapM_eq_ok_iff.2 every

/-- **A batch of searches answers what its searches answer one by one.** -/
theorem searchBatch_eq_ok_iff (positive : 1 ≤ k) (consistent : e.Consistent asked service) :
    (s.searchBatch e (asked.map Prod.fst) k service).1 = .ok answers ↔
      List.Forall₂ (fun query answer =>
        (s.search e query.1 k none query.2).1.map Report.found = .ok answer) asked answers := by
  simp only [search_found_iff positive, forall₂_comp_iff]
  cases asked with
  | nil =>
      have some : k ≠ 0 := by omega
      simp [searchBatch, some, eq_comm]
  | cons query rest =>
      rw [searchBatch_found_iff positive (by simp)]
      simp only [consistent.batch_eq_ok_iff, Embedder.GivesEach]

/-- **A batch agrees with single searches.**  For any store, a consistent embedder and at
least one place: the batch succeeds exactly when the search for each of its queries does; and
then there is one answer for each query, in their order, and it is what the search for that
query finds, documents, distances and order. -/
theorem searchBatch_agrees (s : Store) (positive : 1 ≤ k)
    (consistent : e.Consistent asked service) :
    ((∃ answers, (s.searchBatch e (asked.map Prod.fst) k service).1 = .ok answers) ↔
      ∀ query ∈ asked, ∃ report, (s.search e query.1 k none query.2).1 = .ok report) ∧
    ∀ answers, (s.searchBatch e (asked.map Prod.fst) k service).1 = .ok answers →
      answers.length = asked.length ∧
      ∀ (i : Nat) (query : String × σ), asked[i]? = some query →
        ∃ report, (s.search e query.1 k none query.2).1 = .ok report ∧
          answers[i]? = some report.found := by
  constructor
  · simp only [searchBatch_eq_ok_iff positive consistent, exists_forall₂_iff,
      exists_map_eq_ok_iff]
  · intro answers found
    have each := (searchBatch_eq_ok_iff positive consistent).1 found
    refine ⟨each.length_eq.symm, ?_⟩
    intro i query here
    obtain ⟨inside, rfl⟩ := List.getElem?_eq_some_iff.1 here
    have answered : i < answers.length := each.length_eq ▸ inside
    have one := each.get inside answered
    rw [List.get_eq_getElem] at one
    obtain ⟨report, reported, isFound⟩ := map_eq_ok_iff.1 one
    exact ⟨report, reported, List.getElem?_eq_some_iff.2 ⟨answered, isFound.symm⟩⟩

/-- Two queries are answered like each of them.  A query without a valid embedding fails, and
every batch with it. -/
theorem searchBatch_agrees_sample :
    (∃ answers, (partlyKnown.searchBatch sampleEmbedder ["east", "north"] 2 ()).1 = .ok answers ∧
      answers.length = 2 ∧
      ∃ report, (partlyKnown.search sampleEmbedder "north" 2 none ()).1 = .ok report ∧
        answers[1]? = some report.found) ∧
    ¬ ∃ answers,
      (partlyKnown.searchBatch sampleEmbedder ["north", "south"] 2 ()).1 = .ok answers := by
  have succeeds (query : String)
      (seen : (partlyKnown.search sampleEmbedder query 2 none ()).1.toOption.isSome = true) :
      ∃ report, (partlyKnown.search sampleEmbedder query 2 none ()).1 = .ok report := by
    cases answered : (partlyKnown.search sampleEmbedder query 2 none ()).1 with
    | ok report => exact ⟨report, rfl⟩
    | error failure =>
        rw [answered] at seen
        cases seen
  constructor
  · have consistent : sampleEmbedder.Consistent [("east", ()), ("north", ())] () :=
      Embedder.consistent_ofOne ["east", "north"] ()
    obtain ⟨succeeds_iff, agrees⟩ :=
      searchBatch_agrees partlyKnown (k := 2) (by decide) consistent
    obtain ⟨answers, found⟩ := succeeds_iff.2 (by
      intro query member
      simp only [List.mem_cons, List.not_mem_nil, or_false] at member
      rcases member with rfl | rfl
      · exact succeeds "east" (by decide +kernel)
      · exact succeeds "north" (by decide +kernel))
    obtain ⟨count, each⟩ := agrees answers found
    exact ⟨answers, found, count, each 1 ("north", ()) rfl⟩
  · have consistent : sampleEmbedder.Consistent [("north", ()), ("south", ())] () :=
      Embedder.consistent_ofOne ["north", "south"] ()
    intro found
    obtain ⟨report, answered⟩ :=
      (searchBatch_agrees partlyKnown (k := 2) (by decide) consistent).1.1 found ("south", ())
        (by simp)
    have fails : (partlyKnown.search sampleEmbedder "south" 2 none ()).1.toOption.isSome =
        false := by decide +kernel
    rw [answered] at fails
    cases fails

end Store

end Retrieval
