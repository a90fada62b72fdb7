/-
# Retrieval.Proofs.Store.Content -- which documents are found by their own content

A search of a store that holds documents gives one of them, when one is asked for: the first
by the distances, and where these are equal, by the places (`Store.Holds.nearest_one`).  So a
document is found by its own content exactly when it ranks first for its own embedding
(`Store.Holds.search_content`).

By the distance in space this is to say that it coincides with no earlier one
(`Store.ranksFirst_euclidean_iff`).  By the angle it is enough that it is separated from all
others (`Store.ranksFirst_cosine`).  To be different is not enough
(`Store.different_is_not_enough`): vectors of one direction are at one distance from
everything by the angle, and in space short differences vanish.
-/
import Retrieval.Proofs.Index.Euclidean
import Retrieval.Proofs.Metric.Coincidence
import Retrieval.Proofs.Metric.Separation
import Retrieval.Proofs.Store.Filtered
import Retrieval.Proofs.Store.Fresh

namespace Retrieval

set_option autoImplicit false

namespace Store

variable {σ : Type} {e : Embedder σ} {embed : String → Embedding}
variable {s : Store} {w : World σ} {o : Options} {dimension : UInt64} {documents : List Document}

/-! ## Searching for one document -/

/-- The embedding of the document in a place. -/
def embeddingAt (embed : String → Embedding) (documents : List Document)
    (place : Fin documents.length) : Embedding :=
  embed documents[place].content

/-- The document in a place as a hit of a search for an embedding. -/
def placed (metric : Metric) (embed : String → Embedding) (documents : List Document)
    (query : Embedding) (place : Fin documents.length) : Hit :=
  (UInt64.ofNat place, metric.distance query (embeddingAt embed documents place))

/-- Of all documents the one in this place is the nearest to an embedding, or the first among
the nearest. -/
def RanksFirst (metric : Metric) (embed : String → Embedding) (documents : List Document)
    (query : Embedding) (place : Fin documents.length) : Prop :=
  ∀ other ≠ place, (placed metric embed documents query place).Precedes
    (placed metric embed documents query other)

/-- Only one document ranks first. -/
theorem RanksFirst.unique {metric : Metric} {query : Embedding}
    {place place' : Fin documents.length} (first : RanksFirst metric embed documents query place)
    (first' : RanksFirst metric embed documents query place') : place = place' := by
  by_contra different
  exact (first place' (Ne.symm different)).asymm (first' place different)

theorem toNat_number (fits : documents.length ≤ UInt64.size) (place : Fin documents.length) :
    (UInt64.ofNat place).toNat = place :=
  UInt64.toNat_ofNat_of_lt' (Nat.lt_of_lt_of_le place.isLt fits)

theorem number_lt_iff (fits : documents.length ≤ UInt64.size) (place other : Fin documents.length) :
    UInt64.ofNat place < UInt64.ofNat other ↔ place < other := by
  rw [UInt64.lt_iff_toNat_lt, toNat_number fits, toNat_number fits]
  exact Iff.rfl

/-- Of documents at one distance an earlier one comes first. -/
theorem not_ranksFirst_of_tie {metric : Metric} {query : Embedding}
    {place other : Fin documents.length} (fits : documents.length ≤ UInt64.size)
    (earlier : other < place)
    (tie : metric.distance query (embeddingAt embed documents other) =
      metric.distance query (embeddingAt embed documents place)) :
    ¬ RanksFirst metric embed documents query place := by
  intro first
  exact (first other earlier.ne).asymm (.inr ⟨tie, (number_lt_iff fits other place).2 earlier⟩)

namespace Holds

theorem get?_place (holds : Holds s embed documents) (fits : documents.length ≤ UInt64.size)
    (place : Fin documents.length) :
    s.backend.index.get? (UInt64.ofNat place) = some (embeddingAt embed documents place) := by
  rw [holds.embedding, toNat_number fits, List.getElem?_eq_getElem place.isLt]
  rfl

/-- **A search for one document gives the one that ranks first.** -/
theorem nearest_one (holds : Holds s embed documents) (fits : documents.length ≤ UInt64.size)
    (some : Fin documents.length) {query : Embedding} (valid : query.Valid s.dimension) :
    ∃ report first, s.nearest query 1 none = .ok report ∧ report.dropped = [] ∧
      report.found =
        [(documents[first], s.metric.distance query (embeddingAt embed documents first))] ∧
      RanksFirst s.metric embed documents query first := by
  have faultless : query.fault? s.backend.index.dimension = none :=
    Embedding.fault?_eq_none_iff.2 (holds.dimension.symm ▸ valid)
  obtain ⟨hits, searched, isNearest⟩ :=
    Index.search_isNearest holds.ordered faultless 1 (s.candidate none)
  obtain ⟨hit, rest, rfl, -⟩ :=
    isNearest.exists_first Nat.one_pos (holds.get?_place fits some) rfl
  obtain rfl : rest = [] := by
    have length := isNearest.length_eq
    rw [List.length_cons] at length
    exact List.length_eq_zero_iff.1 (by omega)
  -- nothing but the documents is stored, so the hit is one of them
  obtain ⟨-, v, stored, distance⟩ := isNearest.stored hit List.mem_cons_self
  rw [holds.embedding] at stored
  obtain ⟨d, here, rfl⟩ := Option.map_eq_some_iff.1 stored
  obtain ⟨inside, rfl⟩ := List.getElem?_eq_some_iff.1 here
  have isPlaced : hit = placed s.metric embed documents query ⟨hit.1.toNat, inside⟩ :=
    Prod.ext UInt64.ofNat_toNat.symm (holds.metric ▸ distance)
  have answer : s.nearest query 1 none = .ok (s.join [hit]) := by
    rw [nearest, Embedding.fault?_eq_none_iff.2 valid, searched]
  refine ⟨_, ⟨hit.1.toNat, inside⟩, answer, ?_, ?_, ?_⟩
  · simp [join, holds.document, here]
  · rw [holds.metric] at distance
    simp [join, holds.document, here, distance, embeddingAt]
  · intro other different
    rw [← isPlaced, placed, ← holds.metric]
    refine isNearest.minimal _ _ (holds.get?_place fits other) rfl ?_ hit List.mem_cons_self
    intro same
    refine different (Fin.ext ?_)
    have number : UInt64.ofNat other = hit.1 := by simpa using same
    show (other : Nat) = hit.1.toNat
    rw [← number, toNat_number fits]

end Holds

/-- Whenever a document is searched for by its content, it is found and nothing else. -/
def FindsBack (e : Embedder σ) (s : Store) (d : Document) : Prop :=
  ∀ service, ∃ report, (s.search e d.content 1 none service).1 = .ok report ∧
    report.found.map Prod.fst = [d]

/-- What is found for the content of a document is what ranks first for its embedding. -/
theorem Holds.search_content (holds : Holds s embed documents)
    (fits : documents.length ≤ UInt64.size) (distinct : (documents.map Document.content).Nodup)
    (service : σ) {place : Fin documents.length}
    (valid : (embeddingAt embed documents place).Valid s.dimension)
    (gives : ∀ service, (e.one documents[place].content service).1 =
      .ok (embeddingAt embed documents place)) :
    (∃ report first,
      (∀ service, (s.search e documents[place].content 1 none service).1 = .ok report) ∧
      report.dropped = [] ∧
      report.found = [(documents[first], s.metric.distance (embeddingAt embed documents place)
        (embeddingAt embed documents first))] ∧
      RanksFirst s.metric embed documents (embeddingAt embed documents place) first) ∧
    (s.FindsBack e documents[place] ↔
      RanksFirst s.metric embed documents (embeddingAt embed documents place) place) := by
  obtain ⟨report, first, answer, complete, found, ranks⟩ := holds.nearest_one fits place valid
  have searched (service : σ) :
      (s.search e documents[place].content 1 none service).1 = .ok report :=
    (search_eq_nearest le_rfl (gives service) none).trans answer
  refine ⟨⟨report, first, searched, complete, found, ranks⟩, ?_, ?_⟩
  · intro finds
    obtain ⟨report', again, only⟩ := finds service
    cases again.symm.trans (searched service)
    rw [found] at only
    have same : documents[first] = documents[place] := by simpa using only
    obtain rfl : first = place := Fin.ext ((distinct.of_map _).getElem_inj_iff.1 same)
    exact ranks
  · intro ranks' service
    obtain rfl := ranks.unique ranks'
    exact ⟨report, searched service, by rw [found]; rfl⟩

/-! ## The order by each metric -/

section Order

variable {place : Fin documents.length}

/-- **By the distance in space a document ranks first for its own embedding when it coincides
with no earlier one.** -/
theorem ranksFirst_euclidean_iff (fits : documents.length ≤ UInt64.size)
    (valid : ∀ place, (embeddingAt embed documents place).Valid dimension) :
    RanksFirst .euclidean embed documents (embeddingAt embed documents place) place ↔
      ∀ other < place, ¬ (embeddingAt embed documents place).Coincide
        (embeddingAt embed documents other) := by
  have itself : placed .euclidean embed documents (embeddingAt embed documents place) place =
      (UInt64.ofNat place, .zero false) :=
    Prod.ext rfl (Embedding.euclidean_self (valid place).positive (valid place).finite)
  -- nothing precedes zero, so another document comes first only at zero and in an earlier place
  have each (other : Fin documents.length) :
      (placed .euclidean embed documents (embeddingAt embed documents place) place).Precedes
        (placed .euclidean embed documents (embeddingAt embed documents place) other) ↔
      ((embeddingAt embed documents place).Coincide (embeddingAt embed documents other) →
        place < other) := by
    obtain ⟨length, some, finite⟩ := valid place
    obtain ⟨length', -, finite'⟩ := valid other
    have same := length.trans length'.symm
    have unsigned := Embedding.euclidean_isUnsigned same some finite finite'
    rw [itself, ← Embedding.euclidean_eq_zero_iff same some finite finite',
      ← number_lt_iff fits]
    show Binary.Before _ (Embedding.euclidean _ _) ∨ _ = Embedding.euclidean _ _ ∧ _ ↔ _
    rw [unsigned.zero_before_iff, eq_comm (a := Binary.zero false)]
    tauto
  constructor
  · intro first other earlier coincide
    exact Nat.lt_asymm earlier ((each other).1 (first other earlier.ne) coincide)
  · intro differs other different
    refine (each other).2 fun coincide => ?_
    rcases Nat.lt_or_gt_of_ne (Fin.val_ne_of_ne different) with earlier | later
    · exact absurd coincide (differs other earlier)
    · exact later

/-- **By the angle it ranks first when it is separated from all others.** -/
theorem ranksFirst_cosine (valid : ∀ place, (embeddingAt embed documents place).Valid dimension)
    (separated : ∀ other ≠ place, (embeddingAt embed documents place).Separated
      (embeddingAt embed documents other)) :
    RanksFirst .cosine embed documents (embeddingAt embed documents place) place := by
  intro other different
  have same := (valid place).length_eq.trans (valid other).length_eq.symm
  exact .inl ((separated other different).cosine_self_before same)

end Order

/-! ## Stores that were made from documents -/

/-- **Documents are found by their own content,** as far as the metric tells them apart.  An
embedder gives to contents that are pairwise different, and to the probe, always the same
embeddings, which are valid.  Then a store is made from the documents, in memory or in a
fresh folder in which no operation on files fails.  A search for the content of a document
gives exactly one document, the one that ranks first for its embedding.

So a document is found by its own content exactly when it ranks first itself: its distance
comes before those of the others, or is the same and its place comes before.  By the distance
in space it is exactly when it coincides with no earlier document, and by the angle it is when
it is separated from all others. -/
theorem ofDocuments_findsBack
    (gives : e.Gives embed (probe :: documents.map Document.content))
    (valid : ∀ text ∈ probe :: documents.map Document.content, (embed text).Valid dimension)
    (asked : o.dimension = none ∨ o.dimension = some dimension) (fresh : Fresh o w.disk)
    {device : Device} (obliging : device.Obliging)
    (distinct : (documents.map Document.content).Nodup)
    (fits : documents.length ≤ UInt64.size) :
    ∃ s w', ofDocuments e device documents o w = (.ok s, w') ∧
      ∀ place : Fin documents.length,
        (∃ report first,
          (∀ service, (s.search e documents[place].content 1 none service).1 = .ok report) ∧
          report.dropped = [] ∧
          report.found = [(documents[first], o.metric.distance (embeddingAt embed documents place)
            (embeddingAt embed documents first))] ∧
          RanksFirst o.metric embed documents (embeddingAt embed documents place) first) ∧
        (s.FindsBack e documents[place] ↔
          RanksFirst o.metric embed documents (embeddingAt embed documents place) place) ∧
        (o.metric = .euclidean → (s.FindsBack e documents[place] ↔
          ∀ other < place, ¬ (embeddingAt embed documents place).Coincide
            (embeddingAt embed documents other))) ∧
        (o.metric = .cosine → (∀ other ≠ place, (embeddingAt embed documents place).Separated
          (embeddingAt embed documents other)) → s.FindsBack e documents[place]) := by
  obtain ⟨s, w', made, metric, rfl, holds⟩ :=
    exists_ofDocuments gives valid asked fresh obliging fits
  refine ⟨s, w', made, fun place => ?_⟩
  have known (place : Fin documents.length) :
      documents[place].content ∈ probe :: documents.map Document.content :=
    List.mem_cons_of_mem _ (List.mem_map_of_mem (List.getElem_mem place.isLt))
  have each (place : Fin documents.length) :
      (embeddingAt embed documents place).Valid s.dimension := valid _ (known place)
  obtain ⟨searched, back⟩ := holds.search_content fits distinct w'.service (each place)
    (gives.one _ (known place))
  rw [metric] at searched back
  refine ⟨searched, back, fun euclidean => ?_, fun cosine separated => ?_⟩
  · rw [back, euclidean]
    exact ranksFirst_euclidean_iff fits each
  · rw [back, cosine]
    exact ranksFirst_cosine each separated

/-! ### Bearings -/

/-- The vector with two whole components. -/
def vector (east north : Int) : Embedding := [.ofInt east, .ofInt north]

/-- The vector to the east of length `2 ^ -80`, or twice that. -/
def speck (twice : Bool) : Embedding :=
  [.ofCode false ((if twice then 48 else 47) * 2 ^ 23), .ofInt 0]

/-- Vectors to the east, two of them very short; for all else the vector is to the north. -/
def bearing : String → Embedding
  | "east" => vector 1 0
  | "far east" => vector 2 0
  | "speck" => speck false
  | "grain" => speck true
  | _ => vector 0 1

/-- The embedder of bearings. -/
def compass : Embedder Unit := .ofOne fun text service => (.ok (bearing text), service)

theorem compass_gives (texts : List String) : compass.Gives bearing texts :=
  Embedder.gives_ofOne (fun _ _ => rfl) texts

theorem valid_bearing (text : String) : (bearing text).Valid 2 := by
  rw [← Embedding.fault?_eq_none_iff]
  unfold bearing
  split
  all_goals decide +kernel

theorem inner_vector {a b c d : Int} (short : ∀ n ∈ [a, b, c, d], n.natAbs < 2 ^ 24) :
    (vector a b).inner (vector c d) = a * c + b * d := by
  have real (n : Int) (member : n ∈ [a, b, c, d]) : (Binary.ofInt n : Binary32).real = n :=
    (Binary.standsFor_ofInt (short n member)).real_eq
  simp [vector, Embedding.inner, real]

/-- The two axes are separated. -/
theorem separated_axes : (vector 1 0).Separated (vector 0 1) ∧
    (vector 0 1).Separated (vector 1 0) := by
  have moderate {a : Embedding} (finite : ∀ x ∈ a, x.isFinite = true) (two : a.length = 2)
      (unit : a.inner a = 1) : a.Moderate := by
    refine ⟨finite, ?_, ?_, ?_, ?_⟩
    · rintro rfl
      cases two
    · omega
    all_goals rw [unit]; norm_num
  have eastward : (vector 1 0).inner (vector 1 0) = 1 := by
    rw [inner_vector (by decide)]
    norm_num
  have northward : (vector 0 1).inner (vector 0 1) = 1 := by
    rw [inner_vector (by decide)]
    norm_num
  have east : (vector 1 0).Moderate := moderate (by decide +kernel) rfl eastward
  have north : (vector 0 1).Moderate := moderate (by decide +kernel) rfl northward
  constructor
  · refine ⟨east, north, ?_⟩
    rw [inner_vector (by decide), Embedding.lengths, eastward, northward]
    norm_num [vector]
  · refine ⟨north, east, ?_⟩
    rw [inner_vector (by decide), Embedding.lengths, eastward, northward]
    norm_num [vector]

/-- Two directions are told apart by the angle, and in space two lengths as well. -/
theorem ofDocuments_findsBack_sample :
    (∃ s w', ofDocuments compass .reliable [{ content := "east" }, { content := "north" }] {}
        ⟨(), {}⟩ = (.ok s, w') ∧
      s.FindsBack compass { content := "east" } ∧ s.FindsBack compass { content := "north" }) ∧
    ∃ s w', ofDocuments compass .reliable [{ content := "east" }, { content := "far east" }]
        { metric := .euclidean } ⟨(), {}⟩ = (.ok s, w') ∧
      s.FindsBack compass { content := "east" } ∧
      s.FindsBack compass { content := "far east" } := by
  obtain ⟨eastNorth, northEast⟩ := separated_axes
  constructor
  · have distinct : (([{ content := "east" }, { content := "north" }] : List Document).map
        Document.content).Nodup := by decide
    obtain ⟨s, w', made, each⟩ := ofDocuments_findsBack (o := {}) (w := ⟨(), {}⟩) (compass_gives _)
      (fun text _ => valid_bearing text) (.inl rfl) (.inMemory rfl) Device.reliable_obliging
      distinct (by decide)
    obtain ⟨-, -, -, east⟩ := each 0
    obtain ⟨-, -, -, north⟩ := each 1
    refine ⟨s, w', made, east rfl fun other different => ?_, north rfl fun other different => ?_⟩
    · obtain rfl := (by decide : ∀ other : Fin 2, other ≠ 0 → other = 1) other different
      exact eastNorth
    · obtain rfl := (by decide : ∀ other : Fin 2, other ≠ 1 → other = 0) other different
      exact northEast
  · have distinct : (([{ content := "east" }, { content := "far east" }] : List Document).map
        Document.content).Nodup := by decide
    obtain ⟨s, w', made, each⟩ := ofDocuments_findsBack (o := { metric := .euclidean })
      (w := ⟨(), {}⟩) (compass_gives _) (fun text _ => valid_bearing text) (.inl rfl)
      (.inMemory rfl) Device.reliable_obliging distinct (by decide)
    obtain ⟨-, -, east, -⟩ := each 0
    obtain ⟨-, -, far, -⟩ := each 1
    exact ⟨s, w', made, (east rfl).2 (by decide +kernel), (far rfl).2 (by decide +kernel)⟩

/-- The contents are pairwise different and so are their embeddings, none of which is zero, and
which are valid. -/
structure Distinguishes (embed : String → Embedding) (dimension : UInt64)
    (documents : List Document) : Prop where
  contents : (documents.map Document.content).Nodup
  embeddings : ((probe :: documents.map Document.content).map embed).Nodup
  valid : ∀ text ∈ probe :: documents.map Document.content, (embed text).Valid dimension
  nonzero : ∀ text ∈ probe :: documents.map Document.content,
    ∃ x ∈ embed text, x.isZero = false

/-- **To be different is not enough,** even for an embedder that always gives the same.  Two
vectors to the east are at one distance by the angle, whatever their lengths.  And the square
of the difference of two short ones is rounded to zero, so they are at one distance in space.
Each time the later document is not found. -/
theorem different_is_not_enough :
    (∀ texts, compass.Gives bearing texts) ∧
    (Distinguishes bearing 2 [{ content := "east" }, { content := "far east" }] ∧
      ∃ s w', ofDocuments compass .reliable [{ content := "east" }, { content := "far east" }] {}
          ⟨(), {}⟩ = (.ok s, w') ∧
        ¬ s.FindsBack compass { content := "far east" }) ∧
    Distinguishes bearing 2 [{ content := "speck" }, { content := "grain" }] ∧
      ∃ s w', ofDocuments compass .reliable [{ content := "speck" }, { content := "grain" }]
          { metric := .euclidean } ⟨(), {}⟩ = (.ok s, w') ∧
        ¬ s.FindsBack compass { content := "grain" } := by
  have refuted {first later : Document} {metric : Metric}
      (apart : Distinguishes bearing 2 [first, later])
      (tie : metric.distance (bearing later.content) (bearing first.content) =
        metric.distance (bearing later.content) (bearing later.content)) :
      ∃ s w', ofDocuments compass .reliable [first, later] { metric } ⟨(), {}⟩ = (.ok s, w') ∧
        ¬ s.FindsBack compass later := by
    have fits : [first, later].length ≤ UInt64.size := show 2 ≤ UInt64.size by decide
    obtain ⟨s, w', made, rfl, dimension, holds⟩ := exists_ofDocuments (o := { metric })
      (w := ⟨(), {}⟩) (compass_gives _) apart.valid (.inl rfl) (.inMemory rfl)
      Device.reliable_obliging fits
    have valid : (embeddingAt bearing [first, later] 1).Valid s.dimension :=
      dimension ▸ apart.valid later.content (by simp)
    obtain ⟨-, back⟩ :=
      holds.search_content (e := compass) fits apart.contents () valid fun _ => rfl
    have earlier : (0 : Fin [first, later].length) < 1 := Fin.zero_lt_one
    exact ⟨s, w', made, mt back.1 (not_ranksFirst_of_tie fits earlier tie)⟩
  have eastern : Distinguishes bearing 2 [{ content := "east" }, { content := "far east" }] :=
    ⟨by decide, by decide +kernel, fun text _ => valid_bearing text, by decide +kernel⟩
  have short : Distinguishes bearing 2 [{ content := "speck" }, { content := "grain" }] :=
    ⟨by decide, by decide +kernel, fun text _ => valid_bearing text, by decide +kernel⟩
  exact ⟨compass_gives, ⟨eastern, refuted eastern (by decide +kernel)⟩, short,
    refuted short (by decide +kernel)⟩

end Store

end Retrieval
