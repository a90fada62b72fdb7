/-
# Retrieval.Proofs.Collection.Retry -- flushing again after a failure

A flush is all or nothing (`Collection.flushAt_settles`): either the pending records stand
behind what the log held and nothing is pending, or log, index and pending records are as
they were.  This takes a log that can be cut back; where it cannot be, a flush that fails
may leave a fragment in it.

Records are inserted and flushed in rounds.  What is in the log and what is pending, put
together, is at every moment what it was at the start and then what was accepted
(`Collection.Carries`), whichever of the flushes failed.  So a flush that succeeds after
any number that did not brings every record into the log once, in order
(`Collection.flushes_all_or_nothing`).
-/
import Retrieval.Proofs.Collection.Place

namespace Retrieval

set_option autoImplicit false

namespace Collection

variable {disk between after : Disk} {c c' c'' : Collection} {records more : List Record}

/-! ## Rounds of insertions and a flush -/

/-- The records that a collection of this dimension accepts. -/
def accepted (dimension : UInt64) (records : List Record) : List Record :=
  records.filter fun r => r.vector.fault? dimension = none

/-- Insert a record, which may be refused. -/
def offer (c : Collection) (r : Record) : Collection :=
  match c.insert r.id r.vector with
  | .ok after => after
  | .error _ => c

/-- Insert records one after the other, each of which may be refused. -/
def offerAll (c : Collection) (records : List Record) : Collection := records.foldl offer c

/-- What is accepted overlays the index and is pending. -/
theorem offerAll_eq (c : Collection) (records : List Record) :
    c.offerAll records =
      { c with
        index := c.index.overlay ((accepted c.index.dimension records).map Record.entry)
        pending := c.pending ++ accepted c.index.dimension records } := by
  induction records generalizing c with
  | nil => simp [offerAll, accepted]
  | cons r records ih =>
      rw [show c.offerAll (r :: records) = (c.offer r).offerAll records from rfl, ih]
      cases fault : r.vector.fault? c.index.dimension with
      | none =>
          have taken : c.offer r =
              { c with index := c.index.overlay [r.entry], pending := c.pending ++ [r] } := by
            rw [offer, insert_of_valid r.id fault]
            rfl
          have first : accepted c.index.dimension (r :: records) =
              r :: accepted c.index.dimension records := by simp [accepted, fault]
          rw [taken, first, List.map_cons, Index.overlay_cons _ r.entry (List.map _ _),
            List.append_cons c.pending r (accepted _ _)]
          rfl
      | some _ =>
          have refused : c.offer r = c := by rw [offer, insert_of_fault r.id fault]
          rw [refused]
          simp [accepted, fault]

/-- Insertions, and then a flush onto a device. -/
structure Round where
  offered : List Record
  device : Device

/-- Insert and flush. -/
def round (c : Collection) (disk : Disk) (r : Round) : Disk × Collection × Option IndexError :=
  (c.offerAll r.offered).flushAt r.device disk

/-- Rounds in a row, and how their flushes ended. -/
def rounds (c : Collection) (disk : Disk) :
    List Round → Disk × Collection × List (Option IndexError)
  | [] => (disk, c, [])
  | r :: rest =>
      let (between, c', failure) := c.round disk r
      let (after, c'', failures) := c'.rounds between rest
      (after, c'', failure :: failures)

/-- What log and queue hold together are the bytes from before and those of the records. -/
structure Carries (c : Collection) (disk : Disk) (records : List Record) (c' : Collection)
    (after : Disk) : Prop where
  path_eq : c'.path = c.path
  index_eq : c'.index = c.index.overlay (records.map Record.entry)
  bytes_eq : logged c.path after ++ Log.bytes c'.pending =
    logged c.path disk ++ Log.bytes (c.pending ++ records)

namespace Carries

theorem refl (c : Collection) (disk : Disk) : Carries c disk [] c disk :=
  ⟨rfl, rfl, by rw [List.append_nil]⟩

theorem dimension_eq (carries : Carries c disk records c' after) :
    c'.index.dimension = c.index.dimension := by
  rw [carries.index_eq]
  rfl

theorem trans (first : Carries c disk records c' between)
    (second : Carries c' between more c'' after) :
    Carries c disk (records ++ more) c'' after := by
  refine ⟨second.path_eq.trans first.path_eq, ?_, ?_⟩
  · rw [second.index_eq, first.index_eq, List.map_append, Index.overlay_append]
  · have later := second.bytes_eq
    rw [first.path_eq] at later
    rw [later, Log.bytes_append, ← List.append_assoc, first.bytes_eq, ← List.append_assoc,
      Log.bytes_append _ more, List.append_assoc]

end Carries

/-- One round carries what it accepts, and leaves it pending if the flush fails and is undone. -/
theorem round_carries (c : Collection) (disk : Disk) (r : Round)
    (cuts : (c.round disk r).2.2 ≠ none → r.device.cut = none) :
    Carries c disk (accepted c.index.dimension r.offered) (c.round disk r).2.1
        (c.round disk r).1 ∧
      ((c.round disk r).2.2 = none → (c.round disk r).2.1.pending = []) ∧
      ((c.round disk r).2.2 ≠ none →
        logged c.path (c.round disk r).1 = logged c.path disk ∧
        (c.round disk r).2.1.pending =
          c.pending ++ accepted c.index.dimension r.offered) := by
  have settled := flushAt_settles (c.offerAll r.offered) r.device disk
  rw [round] at cuts ⊢
  rw [offerAll_eq] at settled cuts ⊢
  generalize Collection.flushAt _ r.device disk = flushed at settled cuts ⊢
  obtain ⟨after, c', failure⟩ := flushed
  dsimp only at settled cuts ⊢
  cases settled with
  | written grown =>
      refine ⟨⟨rfl, rfl, ?_⟩, fun _ => rfl, fun failed => absurd rfl failed⟩
      rw [grown]
      exact List.append_nil _
  | undone e _ undone =>
      have same := undone (cuts (Option.some_ne_none e))
      refine ⟨⟨rfl, rfl, by rw [same]⟩, ?_, fun _ => ⟨same, rfl⟩⟩
      intro done
      cases done

/-- **Rounds carry what they accept,** whichever of their flushes fail; and while all of
them fail, the log stays as it is. -/
theorem rounds_carry (c : Collection) (disk : Disk) (rounds : List Round)
    (cuts : ∀ r ∈ rounds, r.device.cut = none) :
    Carries c disk (accepted c.index.dimension (rounds.flatMap Round.offered))
        (c.rounds disk rounds).2.1 (c.rounds disk rounds).1 ∧
      ((∀ failure ∈ (c.rounds disk rounds).2.2, failure ≠ none) →
        logged c.path (c.rounds disk rounds).1 = logged c.path disk ∧
        (c.rounds disk rounds).2.1.pending =
          c.pending ++ accepted c.index.dimension (rounds.flatMap Round.offered)) := by
  induction rounds generalizing c disk with
  | nil => exact ⟨.refl c disk, fun _ => ⟨rfl, (List.append_nil _).symm⟩⟩
  | cons r rest ih =>
      obtain ⟨cutsFirst, cutsLater⟩ := List.forall_mem_cons.1 cuts
      obtain ⟨first, -, kept⟩ := round_carries c disk r fun _ => cutsFirst
      obtain ⟨later, keptLater⟩ := ih (c.round disk r).2.1 (c.round disk r).1 cutsLater
      have all : accepted c.index.dimension ((r :: rest).flatMap Round.offered) =
          accepted c.index.dimension r.offered ++
            accepted c.index.dimension (rest.flatMap Round.offered) := by
        rw [List.flatMap_cons, accepted, List.filter_append]
        rfl
      rw [first.dimension_eq] at later keptLater
      rw [first.path_eq] at keptLater
      rw [all]
      refine ⟨first.trans later, ?_⟩
      intro failed
      obtain ⟨failedFirst, failedLater⟩ := List.forall_mem_cons.1 failed
      obtain ⟨sameFirst, pendingFirst⟩ := kept failedFirst
      obtain ⟨sameLater, pendingLater⟩ := keptLater failedLater
      refine ⟨sameLater.trans sameFirst, ?_⟩
      rw [← List.append_assoc, ← pendingFirst]
      exact pendingLater

/-- **A flush is all or nothing.**  It either succeeds, and the log holds what it held and
then the lines of all pending records in order, with nothing pending; or it fails, and
index and pending records are as they were, and so is the log if it can be cut back; if it
cannot be, it still starts with what it held.  It succeeds if the log can be written and
the device takes something of every write.  And after any number of flushes that failed and
were undone, with insertions between them, one that succeeds appends every record once:
those that were pending at the start, and then those that were accepted. -/
theorem flushes_all_or_nothing (c : Collection) (disk : Disk) :
    (∀ device, ∃ after c' failure, c.flushAt device disk = (after, c', failure) ∧
      (failure = none ∧ logged c.path after = logged c.path disk ++ Log.bytes c.pending ∧
          c' = { c with pending := [] } ∨
        (∃ e, failure = some e) ∧ c' = c ∧
          (device.cut = none → logged c.path after = logged c.path disk) ∧
          logged c.path disk <+: logged c.path after)) ∧
    (∀ device place f, device.Obliging → disk.folder c.path = .ok (place, f) →
      f.IsFile logName → isCramped c.path = false → (c.flushAt device disk).2.2 = none) ∧
    ∀ failing last between c₁ failures after c₂, (∀ r ∈ failing, r.device.cut = none) →
      c.rounds disk failing = (between, c₁, failures) → (∀ failure ∈ failures, failure ≠ none) →
      c₁.round between last = (after, c₂, none) →
        logged c.path between = logged c.path disk ∧
        c₁.pending =
          c.pending ++ accepted c.index.dimension (failing.flatMap Round.offered) ∧
        logged c.path after = logged c.path disk ++ Log.bytes (c.pending ++
          accepted c.index.dimension ((failing ++ [last]).flatMap Round.offered)) ∧
        c₂.pending = [] ∧
        c₂.index = c.index.overlay ((accepted c.index.dimension
          ((failing ++ [last]).flatMap Round.offered)).map Record.entry) := by
  refine ⟨?_, ?_, ?_⟩
  · intro device
    have settled := flushAt_settles c device disk
    generalize c.flushAt device disk = flushed at settled
    obtain ⟨after, c', failure⟩ := flushed
    refine ⟨after, c', failure, rfl, ?_⟩
    cases settled with
    | written grown => exact .inl ⟨rfl, grown, rfl⟩
    | undone e kept same => exact .inr ⟨⟨e, rfl⟩, rfl, same, kept⟩
  · intro device place f obliging leads isFile roomy
    exact flushAt_succeeds obliging leads isFile roomy
  · intro failing last between c₁ failures after c₂ cuts ran failed done
    obtain ⟨carried, kept⟩ := rounds_carry c disk failing cuts
    obtain ⟨carriedLast, clears, -⟩ := round_carries c₁ between last
      fun failed => absurd (by rw [done]) failed
    rw [ran] at carried kept
    rw [done] at carriedLast clears
    have cleared : c₂.pending = [] := clears rfl
    have all : accepted c.index.dimension ((failing ++ [last]).flatMap Round.offered) =
        accepted c.index.dimension (failing.flatMap Round.offered) ++
          accepted c₁.index.dimension last.offered := by
      rw [carried.dimension_eq, List.flatMap_append, List.flatMap_singleton, accepted,
        List.filter_append]
      rfl
    have whole := carried.trans carriedLast
    rw [← all] at whole
    have bytes := whole.bytes_eq
    rw [cleared, show Log.bytes [] = [] from rfl, List.append_nil] at bytes
    exact ⟨(kept failed).1, (kept failed).2, bytes, cleared, whole.index_eq⟩

/-! ### Two flushes that fail, and a third -/

/-- A collection with a record pending. -/
def samplePending : Collection := ⟨"c", fresh ⟨1, .euclidean⟩, [⟨7, [.ofInt 1]⟩]⟩

/-- The first flush fails inside of the record.  Then two more are inserted, the second of
which is refused, and the next flush fails behind the first record. -/
def sampleFailing : List Round :=
  [⟨[], .limited 10⟩, ⟨[⟨8, [.ofInt 2]⟩, ⟨9, [.nan]⟩], .limited 30⟩]

/-- Both records are in the log then, behind what was there, each once. -/
theorem flushes_all_or_nothing_sample :
    ∃ between c₁ failures after c₂,
      samplePending.rounds (shelf ⟨1, .euclidean⟩ (Log.bytes [⟨7, [.ofInt 5]⟩])) sampleFailing =
        (between, c₁, failures) ∧ failures.length = 2 ∧ (∀ failure ∈ failures, failure ≠ none) ∧
      c₁.round between ⟨[], .reliable⟩ = (after, c₂, none) ∧
      logged "c" after =
        Log.bytes [⟨7, [.ofInt 5]⟩, ⟨7, [.ofInt 1]⟩, ⟨8, [.ofInt 2]⟩] := by
  let disk := shelf ⟨1, .euclidean⟩ (Log.bytes [⟨7, [.ofInt 5]⟩])
  have outcomes : (samplePending.rounds disk sampleFailing).2.2.length = 2 ∧
      (∀ failure ∈ (samplePending.rounds disk sampleFailing).2.2, failure ≠ none) ∧
      ((samplePending.rounds disk sampleFailing).2.1.round
        (samplePending.rounds disk sampleFailing).1 ⟨[], .reliable⟩).2.2 = none := by
    decide +kernel
  obtain ⟨count, failed, last⟩ := outcomes
  have cuts : ∀ r ∈ sampleFailing, r.device.cut = none := by decide
  obtain ⟨-, -, retried⟩ := flushes_all_or_nothing samplePending disk
  cases ran : samplePending.rounds disk sampleFailing with
  | mk between rest =>
      obtain ⟨c₁, failures⟩ := rest
      rw [ran] at count failed last
      cases done : c₁.round between ⟨[], .reliable⟩ with
      | mk after result =>
          obtain ⟨c₂, failure⟩ := result
          rw [done] at last
          cases last
          obtain ⟨-, -, appended, -⟩ := retried _ _ _ _ _ _ _ cuts ran failed done
          refine ⟨between, c₁, failures, after, c₂, rfl, count, failed, done, ?_⟩
          rw [show logged "c" after = logged samplePending.path after from rfl, appended]
          decide +kernel

end Collection

end Retrieval
