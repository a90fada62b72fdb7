/-
# Retrieval.Proofs.Collection.Crash -- what a cut log is recovered to

A record counts as written when its text is in the log to the last brace; its line feed
does not matter (`Log.Written`).  A log that was cut anywhere is recovered to the records
written before the cut.  It is changed only when the cut falls strictly inside of a
record (`Log.CutInside`), and then to the lines of those records (`Log.replay_cut`).

`Collection.Session.recovers` says so of every log that any history of flushes leaves.
-/
import Retrieval.Proofs.Collection.Fidelity
import Retrieval.Proofs.Collection.Recovery

namespace Retrieval

set_option autoImplicit false

namespace Log

variable {records : List Record} {r : Record} {i j k n : Nat}

/-! ## Where the lines are -/

/-- Where the line of a record begins. -/
def offset (records : List Record) (i : Nat) : Nat := (bytes (records.take i)).length

/-- The text of the record in this place is within the first bytes of the log. -/
def Written (records : List Record) (n i : Nat) : Prop :=
  ∃ r, records[i]? = some r ∧ offset records i + (Bytes.ofText r.text).length ≤ n

/-- The cut falls strictly inside of the text of a record. -/
def CutInside (records : List Record) (n : Nat) : Prop :=
  ∃ i r, records[i]? = some r ∧ offset records i < n ∧
    n < offset records i + (Bytes.ofText r.text).length

theorem offset_succ (found : records[i]? = some r) :
    offset records (i + 1) = offset records i + (Bytes.ofText r.text).length + 1 := by
  have line : r.bytes.length = (Bytes.ofText r.text).length + 1 := by
    rw [Record.bytes, Record.line, Bytes.ofText_append, List.length_append]
    rfl
  have last : bytes [r] = r.bytes := List.append_nil _
  rw [offset, List.take_add_one, found, Option.toList_some, bytes_append, List.length_append, last,
    line, offset, Nat.add_assoc]

theorem offset_mono (records : List Record) (le : i ≤ j) : offset records i ≤ offset records j := by
  have split : records.take j = records.take i ++ (records.take j).drop i := by
    have first : (records.take j).take i = records.take i := by
      rw [List.take_take, Nat.min_eq_left le]
    rw [← first, List.take_append_drop]
  rw [offset, offset, split, bytes_append, List.length_append]
  exact Nat.le_add_right _ _

/-- The records written before a cut are those whose lines end before it or right behind it. -/
theorem written_iff (inside : k ≤ records.length) (low : offset records k ≤ n + 1)
    (high : k < records.length → n + 1 < offset records (k + 1)) :
    i < k ↔ Written records n i := by
  constructor
  · intro before
    have found := List.getElem?_eq_getElem (show i < records.length by omega)
    have next := offset_succ found
    have mono := offset_mono records (show i + 1 ≤ k by omega)
    exact ⟨_, found, by omega⟩
  · rintro ⟨r, found, fits⟩
    by_contra past
    have here := (List.getElem?_eq_some_iff.1 found).1
    have next := offset_succ found
    have mono := offset_mono records (show k + 1 ≤ i + 1 by omega)
    have := high (by omega)
    omega

/-- A cut where a line begins, or right before, is inside of no record. -/
theorem not_cutInside (low : offset records k ≤ n + 1)
    (high : k < records.length → n ≤ offset records k) : ¬ CutInside records n := by
  rintro ⟨i, r, found, behind, before⟩
  have here := (List.getElem?_eq_some_iff.1 found).1
  have next := offset_succ found
  rcases Nat.lt_or_ge i k with early | late
  · have mono := offset_mono records (show i + 1 ≤ k by omega)
    omega
  · have mono := offset_mono records late
    have := high (by omega)
    omega

/-! ## Replaying what is left -/

variable {index : Index}

theorem length_ofText_text (readable : r.Readable) :
    (Bytes.ofText r.text).length = r.text.length :=
  Bytes.length_ofText fun _ member =>
    Bytes.isAscii_of_isVisible (Record.isVisible_of_mem_text readable member)

theorem offset_length (whole rest : List Record) :
    offset (whole ++ rest) whole.length = (bytes whole).length := by
  rw [offset, List.take_left]

/-- What was left of a log is as long as the cut allows. -/
theorem length_left {left : List Char} (readable : ∀ r ∈ records, r.Readable)
    (cut : (text records).take n = left) :
    left.length = min n (offset records records.length) := by
  rw [offset, List.take_length, length_bytes readable, ← cut, List.length_take]

/-- The record behind a first part of the log, and where its line ends. -/
theorem offset_next (readable : ∀ r ∈ records, r.Readable) (more : k < records.length) :
    offset records k + 1 < offset records (k + 1) ∧
      offset records (k + 1) ≤ offset records records.length := by
  have next := offset_succ (List.getElem?_eq_getElem more)
  have some := List.length_pos_iff.2 (records[k].text_ne_nil)
  have length := length_ofText_text (readable records[k] (List.getElem_mem more))
  exact ⟨by omega, offset_mono records more⟩

/-- **What a cut log is replayed to:** the records that were written before the cut.  The
log is to be cut back to their lines if the cut is strictly inside of a record, and else
to be left alone. -/
theorem replay_cut (sound : ∀ r ∈ records, r.Sound index.dimension) (n : Nat) :
    ∃ kept, kept <+: records ∧ (∀ i, i < kept.length ↔ Written records n i) ∧
      ((CutInside records n ∧ replay index ((text records).take n) =
          .ok (index.overlay (kept.map Record.entry), some (text kept))) ∨
        (¬ CutInside records n ∧ replay index ((text records).take n) =
          .ok (index.overlay (kept.map Record.entry), none))) := by
  have readable : ∀ r ∈ records, r.Readable := fun r member => (sound r member).readable
  cases cut records n with
  | between whole rest split left =>
      subst split
      have wholeSound : ∀ r ∈ whole, r.Sound index.dimension :=
        fun r member => sound r (List.mem_append_left _ member)
      have length := length_left readable left
      rw [← length_bytes fun r member => (wholeSound r member).readable,
        ← offset_length whole rest] at length
      have next := offset_next (k := whole.length) readable
      refine ⟨whole, List.prefix_append _ _, fun i => ?_, .inr ⟨?_, left ▸ replay_text wholeSound⟩⟩
      · refine written_iff (by simp) (by omega) fun more => ?_
        have := next more
        omega
      · refine not_cutInside (k := whole.length) (by omega) fun more => ?_
        have := next more
        omega
  | inside whole r rest fragment split nonempty isPrefix strict left =>
      subst split
      have wholeSound : ∀ s ∈ whole, s.Sound index.dimension :=
        fun s member => sound s (List.mem_append_left _ member)
      have torn := readable r (by simp)
      have found : (whole ++ r :: rest)[whole.length]? = some r := by simp
      have next := offset_succ found
      have below := (offset_next (k := whole.length) readable (by simp)).2
      have length := length_left readable left
      rw [List.length_append, ← length_bytes fun s member => (wholeSound s member).readable,
        ← offset_length whole (r :: rest)] at length
      -- the fragment is neither empty nor the whole text
      have some := List.length_pos_iff.2 nonempty
      have short : fragment.length < (Bytes.ofText r.text).length := by
        rw [length_ofText_text torn]
        exact lt_of_le_of_ne isPrefix.length_le fun same => strict (isPrefix.eq_of_length same)
      refine ⟨whole, List.prefix_append _ _, fun i => ?_,
        .inl ⟨⟨whole.length, r, found, by omega, by omega⟩, ?_⟩⟩
      · exact written_iff (by simp) (by omega) fun _ => by omega
      · rw [left, replay_torn wholeSound torn nonempty isPrefix strict]
  | bare whole r rest split place left =>
      have split' : records = (whole ++ [r]) ++ rest := by rw [split, ← List.append_cons]
      subst split'
      have keptSound : ∀ s ∈ whole ++ [r], s.Sound index.dimension :=
        fun s member => sound s (List.mem_append_left _ member)
      rw [← length_bytes fun s member => (keptSound s member).readable,
        ← offset_length (whole ++ [r]) rest] at place
      have next := offset_next (k := (whole ++ [r]).length) readable
      refine ⟨whole ++ [r], List.prefix_append _ _, fun i => ?_, .inr ⟨?_, ?_⟩⟩
      · refine written_iff (by simp) (by omega) fun more => ?_
        have := next more
        omega
      · exact not_cutInside (k := (whole ++ [r]).length) (by omega) fun _ => by omega
      · rw [left]
        exact replay_bare (fun s member => keptSound s (List.mem_append_left _ member))
          (keptSound r (by simp))

end Log

namespace Collection

variable {path : String} {place : List String} {asked : Header} {disk : Disk}
variable {records : List Record}

/-! ## Opening what is left -/

/-- **A collection whose log was cut opens with what was written,** and leaves the log as
it is unless the cut is strictly inside of a record. -/
theorem openAt_written (sound : ∀ r ∈ records, r.Sound asked.dimension) {n : Nat}
    (stored : StoredAt path place asked ((Log.bytes records).take n) disk) :
    ∃ kept after content, kept <+: records ∧ (∀ i, i < kept.length ↔ Log.Written records n i) ∧
      openAt path asked disk =
        (after, .ok { path, index := (fresh asked).overlay (kept.map Record.entry) }) ∧
      StoredAt path place asked content after ∧
      (Log.CutInside records n → content = Log.bytes kept) ∧
      (¬ Log.CutInside records n → content = (Log.bytes records).take n) := by
  have ascii := Log.isAscii_of_mem_text fun r member => (sound r member).readable
  rw [Log.bytes_eq, Bytes.take_ofText ascii] at stored ⊢
  obtain ⟨kept, isPrefix, written, ⟨cut, replayed⟩ | ⟨whole, replayed⟩⟩ :=
    Log.replay_cut (show ∀ r ∈ records, r.Sound (fresh asked).dimension from sound) n
  · obtain ⟨after, opened, stored⟩ := openAt_of_torn stored replayed
    exact ⟨kept, after, _, isPrefix, written, opened, stored, fun _ => (Log.bytes_eq kept).symm,
      fun whole => absurd cut whole⟩
  · obtain ⟨after, opened, stored⟩ := openAt_of_whole stored replayed
    exact ⟨kept, after, _, isPrefix, written, opened, stored, fun cut => absurd cut whole,
      fun _ => rfl⟩

namespace Session

variable {s : Session} {l : Ledger} {f : Folder}

/-- When there is a header, a collection has been made. -/
theorem Agrees.stored_of_header (agrees : Agrees path place asked s l)
    (there : Home s.disk path place f)
    (header : Entries.get? headerName f = some (.file asked.bytes)) :
    Holds f asked (Log.bytes l.flushed) := by
  rcases agrees.disk with ⟨home, rfl⟩ | ⟨g, home, holds⟩
  · cases home.leads.symm.trans there.leads
    cases header
  · cases home.leads.symm.trans there.leads
    exact holds

/-- **What is recovered after a crash.**  After any history in which flushes that fail are
undone, the log that was flushed is cut anywhere while the header stays.  The collection
then opens, with nothing pending and exactly the records written before the cut, the last
of each number.  The log afterwards is cut back to their lines if the cut is strictly
inside of a record, and else as the crash left it. -/
theorem recovers (home : Home disk path place []) {actions : List Action}
    (undone : Undoes path asked { disk } actions)
    (ran : run path asked { disk } {} actions = (s, l)) (there : Home s.disk path place f)
    (header : Entries.get? headerName f = some (.file asked.bytes)) (n : Nat) :
    f.content logName = Log.bytes l.flushed ∧
    ∃ kept, kept <+: l.flushed ∧ (∀ i, i < kept.length ↔ Log.Written l.flushed n i) ∧
    ∃ after c g,
      openAt path asked (s.disk.put place (withLog f ((f.content logName).take n))) =
        (after, .ok c) ∧ c.pending = [] ∧
      c.index.metric = asked.metric ∧ c.index.dimension = asked.dimension ∧ c.index.Ordered ∧
      (∀ id, c.index.get? id = Entries.get? id (kept.map Record.entry).reverse) ∧
      Home after path place g ∧ Holds g asked (g.content logName) ∧
      (Log.CutInside l.flushed n → g.content logName = Log.bytes kept) ∧
      (¬ Log.CutInside l.flushed n → g.content logName = (f.content logName).take n) := by
  have agrees := agrees_of_run home undone ran
  have holds := agrees.stored_of_header there header
  have stored := there.withLog holds ((Log.bytes l.flushed).take n)
  obtain ⟨kept, after, content, isPrefix, written, opened, ⟨g, arrived, held⟩, inside, outside⟩ :=
    openAt_written agrees.sound stored
  rw [holds.log]
  have same := held.log
  refine ⟨rfl, kept, isPrefix, written, after, _, g, opened, rfl, rfl, rfl,
    Index.overlay_ordered (fresh_ordered asked) _, ?_, arrived, same.symm ▸ held, ?_, ?_⟩
  · intro id
    rw [Index.get?_overlay]
    exact Option.or_none
  · rw [same]
    exact inside
  · rw [same]
    exact outside

/-! ### A cut inside of the second record -/

def samplePair : List Action :=
  [.opens, .inserts 0 7 [.ofInt 1], .inserts 0 8 [.ofInt 2], .flushes 0 .reliable]

theorem recovers_sample :
    ∃ s l f after c g,
      run "c" ⟨1, .euclidean⟩ { disk := sampleDisk } {} samplePair = (s, l) ∧
      Home s.disk "c" ["c"] f ∧
      openAt "c" ⟨1, .euclidean⟩ (s.disk.put ["c"] (withLog f ((f.content logName).take 30))) =
        (after, .ok c) ∧
      c.index.get? 7 = some [.ofInt 1] ∧ c.index.get? 8 = none ∧
      Home after "c" ["c"] g ∧ g.content logName = Log.bytes [⟨7, [.ofInt 1]⟩] := by
  have home : Home sampleDisk "c" ["c"] [] := ⟨rfl, .inr (by decide), by decide⟩
  have flushed : (run "c" ⟨1, .euclidean⟩ { disk := sampleDisk } {} samplePair).2.flushed =
      [⟨7, [.ofInt 1]⟩, ⟨8, [.ofInt 2]⟩] := by decide +kernel
  have undone : Undoes "c" ⟨1, .euclidean⟩ { disk := sampleDisk } samplePair :=
    undoes_of_cutsBack (by simp [samplePair, Action.CutsBack, Device.reliable])
  cases ran : run "c" ⟨1, .euclidean⟩ { disk := sampleDisk } {} samplePair with
  | mk s l =>
      rw [ran] at flushed
      dsimp only at flushed
      have agrees := agrees_of_run home undone ran
      have begun : ¬ (Home s.disk "c" ["c"] [] ∧ l = {}) := by
        rintro ⟨-, empty⟩
        rw [empty] at flushed
        cases flushed
      obtain ⟨f, there, holds⟩ := agrees.disk.resolve_left begun
      obtain ⟨-, kept, isPrefix, written, after, c, g, opened, -, -, -, -, found, arrived, -,
        inside, -⟩ := recovers home undone ran there holds.header 30
      rw [flushed] at isPrefix written inside
      have first : 0 < kept.length := (written 0).2 ⟨_, rfl, by decide +kernel⟩
      have second : ¬ 1 < kept.length := by
        rw [written]
        rintro ⟨r, same, fits⟩
        cases same
        exact absurd fits (by decide +kernel)
      have same : kept = [⟨7, [.ofInt 1]⟩] := by
        rw [List.prefix_iff_eq_take.1 isPrefix, show kept.length = 1 by omega]
        rfl
      have cut : Log.CutInside [⟨7, [.ofInt 1]⟩, ⟨8, [.ofInt 2]⟩] 30 :=
        ⟨1, _, rfl, by decide +kernel, by decide +kernel⟩
      refine ⟨s, l, f, after, c, g, rfl, there, opened, ?_, ?_, arrived, same ▸ inside cut⟩
      · rw [found, same]
        decide
      · rw [found, same]
        decide

end Session

end Collection

end Retrieval
