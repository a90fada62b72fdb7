/-
# Retrieval.Proofs.Collection.Opening -- opening what is there, and opening it again

What is in the place of the log need not come from a collection.  If it is a text, it is
opened or refused by its lines (`Collection.replays_any_log`): all of them must pass but a
garbled rest, which is cut off.

Whatever is on the disk, a collection that opens leaves the disk in a state in which it
opens again as the same collection and leaves everything as it is
(`Collection.opens_again`).  The first opening may have made folders, written a header or
cut a torn line off the log.  The second finds the header that was asked for
(`settleHeader_settled`) and a log with nothing more to cut off (`Log.replay_of_cut`).
-/
import Retrieval.Proofs.Collection.Refusal

namespace Retrieval

set_option autoImplicit false

namespace Collection

variable {path : String} {place : List String} {asked : Header} {disk after : Disk}
variable {f g : Folder} {c : Collection} {text rest : List Char} {lines : List (List Char)}

/-! ## Opening whatever is in the log -/

/-- What the opening of a log that is a text comes down to. -/
theorem openAt_of_readHeader (home : Home disk path place f)
    (header : readHeader path f = .ok asked)
    (log : Entries.get? logName f = some (.file (Bytes.ofText text))) :
    openAt path asked disk =
      match Log.replay (fresh asked) text with
      | .error (.refused fault) => (disk.put place f, .error (.fault fault))
      | .error (.unreadable line) => (disk.put place f, .error (unreadableLine path line))
      | .ok (index, none) => (disk.put place f, .ok { path, index })
      | .ok (index, some kept) =>
          (disk.put place (withLog f (Bytes.ofText kept)), .ok { path, index }) := by
  rw [openAt_of_home home, openIn_of_readHeader header,
    replayLog_of_readText (Folder.readText_ofText log)]
  cases Log.replay (fresh asked) text with
  | error fault => cases fault <;> rfl
  | ok replayed =>
      obtain ⟨index, cut⟩ := replayed
      cases cut <;> rfl

/-- A collection just opened that holds, under every number, the embedding of the last
record of that number. -/
structure Recalls (c : Collection) (path : String) (asked : Header) (records : List Record) :
    Prop where
  path_eq : c.path = path
  pending_eq : c.pending = []
  metric_eq : c.index.metric = asked.metric
  dimension_eq : c.index.dimension = asked.dimension
  ordered : c.index.Ordered
  latest : ∀ id, c.index.get? id = Entries.get? id (records.map Record.entry).reverse

theorem recalls_overlay (path : String) (asked : Header) (records : List Record) :
    Recalls { path, index := (fresh asked).overlay (records.map Record.entry) } path asked
      records := by
  refine ⟨rfl, rfl, rfl, rfl, Index.overlay_ordered (fresh_ordered asked) _, ?_⟩
  intro id
  rw [Index.get?_overlay]
  exact Option.or_none

/-- When a log opens, its lines pass, and a garbled rest is cut off. -/
theorem lines_of_opened (home : Home disk path place f) (header : readHeader path f = .ok asked)
    (log : Entries.get? logName f = some (.file (Bytes.ofText text)))
    (framed : Text.Framed text lines rest) (opened : openAt path asked disk = (after, .ok c)) :
    ((∀ line ∈ lines, Log.Passes asked.dimension line) ∧
      (Log.Passes asked.dimension rest ∨ Log.Garbled rest)) ∧
    Recalls c path asked (Log.recordsOn (lines ++ [rest])) ∧
    ∃ g, Home after path place g ∧
      (∀ name, name ≠ logName → Entries.get? name g = Entries.get? name f) ∧
      (Log.Garbled rest →
        Entries.get? logName g = some (.file (Bytes.ofText (Text.ended lines)))) ∧
      (¬ Log.Garbled rest → Entries.get? logName g = some (.file (Bytes.ofText text))) := by
  have replayed := Log.replayed (fresh asked) framed
  rw [openAt_of_readHeader home header log] at opened
  generalize Log.replay (fresh asked) text = outcome at opened replayed
  cases replayed with
  | whole passes last =>
      cases opened
      exact ⟨⟨passes, .inl last⟩, recalls_overlay path asked _, f, home.put (Folder.Keeps.refl f),
        fun _ _ => rfl, fun garbled => absurd garbled last.not_garbled, fun _ => log⟩
  | torn passes garbled =>
      cases opened
      refine ⟨⟨passes, .inr garbled⟩, recalls_overlay path asked _, _,
        home.put (keeps_withLog (Folder.isFile_of_file log) _), ?_, fun _ => ?_,
        fun whole => absurd garbled whole⟩
      · intro name other
        rw [withLog, Entries.get?_insert, if_neg other]
      · rw [withLog, Entries.get?_insert, if_pos rfl]
  | garbled => cases opened
  | refused => cases opened

/-- When a log does not open, the first line that does not pass is the reason, and the
folder is as it was. -/
theorem line_of_refused {e : IndexError} (home : Home disk path place f)
    (header : readHeader path f = .ok asked)
    (log : Entries.get? logName f = some (.file (Bytes.ofText text)))
    (framed : Text.Framed text lines rest)
    (failed : openAt path asked disk = (after, .error e)) :
    (∃ before line later, lines ++ [rest] = before ++ line :: later ∧
      (∀ line ∈ before, Log.Passes asked.dimension line) ∧
      (Log.Garbled line ∧ before.length < lines.length ∧
          e = .corrupt s!"{Path.join path logName} line {before.length + 1}" ∨
        ∃ fault, Log.Refused asked.dimension line fault ∧ e = .fault fault)) ∧
    Home after path place f := by
  have kept : Home (disk.put place f) path place f := home.put (Folder.Keeps.refl f)
  have replayed := Log.replayed (fresh asked) framed
  rw [openAt_of_readHeader home header log] at failed
  generalize Log.replay (fresh asked) text = outcome at failed replayed
  cases replayed with
  | whole => cases failed
  | torn => cases failed
  | garbled before line later split passes here =>
      cases failed
      refine ⟨⟨before, line, later ++ [rest], ?_, passes, .inl ⟨here, ?_, rfl⟩⟩, kept⟩
      · rw [split, List.append_assoc, List.cons_append]
      · simp [split]
  | refused before line later fault split passes here =>
      cases failed
      exact ⟨⟨before, line, later, split, passes, .inr ⟨fault, here, rfl⟩⟩, kept⟩

/-- **A log of any text is opened or refused by its lines.**  It opens exactly when its
lines pass and what is behind the last line feed passes or is garbled.  The collection
then holds the last record of every number, and the log is the text, without what is
behind the last line feed if that is garbled.  Otherwise the first line that does not
pass is the reason: a garbled line is named by its number, and of a record that the index
refuses the fault is told; and the folder is as it was. -/
theorem replays_any_log (home : Home disk path place f) (header : readHeader path f = .ok asked)
    (log : Entries.get? logName f = some (.file (Bytes.ofText text)))
    (framed : Text.Framed text lines rest) :
    ((∃ after c, openAt path asked disk = (after, .ok c)) ↔
      (∀ line ∈ lines, Log.Passes asked.dimension line) ∧
        (Log.Passes asked.dimension rest ∨ Log.Garbled rest)) ∧
    (∀ after c, openAt path asked disk = (after, .ok c) →
      Recalls c path asked (Log.recordsOn (lines ++ [rest])) ∧
      ∃ g, Home after path place g ∧
        (∀ name, name ≠ logName → Entries.get? name g = Entries.get? name f) ∧
        (Log.Garbled rest →
          Entries.get? logName g = some (.file (Bytes.ofText (Text.ended lines)))) ∧
        (¬ Log.Garbled rest → Entries.get? logName g = some (.file (Bytes.ofText text)))) ∧
    (∀ e, (openAt path asked disk).2 = .error e ↔
      ∃ before line later, lines ++ [rest] = before ++ line :: later ∧
        (∀ line ∈ before, Log.Passes asked.dimension line) ∧
        (Log.Garbled line ∧ before.length < lines.length ∧
            e = .corrupt s!"{Path.join path logName} line {before.length + 1}" ∨
          ∃ fault, Log.Refused asked.dimension line fault ∧ e = .fault fault)) ∧
    ∀ after e, openAt path asked disk = (after, .error e) → Home after path place f := by
  refine ⟨⟨?_, ?_⟩, ?_, fun e => ⟨?_, ?_⟩, ?_⟩
  · rintro ⟨after, c, opened⟩
    exact (lines_of_opened home header log framed opened).1
  · rw [openAt_of_readHeader home header log]
    rintro ⟨passes, last | garbled⟩
    · rw [Log.replay_of_passes (fresh asked) framed passes last]
      exact ⟨_, _, rfl⟩
    · rw [Log.replay_of_torn (fresh asked) framed passes garbled]
      exact ⟨_, _, rfl⟩
  · intro after c opened
    exact (lines_of_opened home header log framed opened).2
  · intro failed
    exact (line_of_refused home header log framed (Prod.ext rfl failed)).1
  · rw [openAt_of_readHeader home header log]
    rintro ⟨before, line, later, split, passes, ⟨garbled, inside, rfl⟩ | ⟨fault, refused, rfl⟩⟩
    · rcases Log.first_of_split split with ⟨more, rfl⟩ | ⟨rfl, -⟩
      · rw [Log.replay_of_garbled (fresh asked) framed passes garbled]
        rfl
      · exact absurd inside (Nat.lt_irrefl _)
    · rw [Log.replay_of_refused (fresh asked) framed split passes refused]
  · intro after e failed
    exact (line_of_refused home header log framed failed).2

/-! ### A blank line, a number that comes twice, and a torn rest -/

/-- Two records of one number, and a line of two blanks, one of them of three bytes. -/
def sampleLines : List (List Char) :=
  [Record.text ⟨7, [.ofInt 1]⟩, ['\u2003', '\t'], Record.text ⟨7, [.ofInt 2]⟩]

theorem sampleLines_pass : ∀ line ∈ sampleLines, Log.Passes 1 line := by
  have record (r : Record) (read : Record.read? (Text.trim r.text) = some r)
      (valid : r.vector.fault? 1 = none) : Log.Passes 1 r.text :=
    .inr ⟨r, read, Embedding.fault?_eq_none_iff.1 valid⟩
  intro line member
  simp only [sampleLines, List.mem_cons, List.not_mem_nil, or_false] at member
  rcases member with rfl | rfl | rfl
  · exact record _ (by decide +kernel) (by decide +kernel)
  · exact .inl (by decide +kernel)
  · exact record _ (by decide +kernel) (by decide +kernel)

/-- Behind the lines a brace is left over: it is cut off, and the second record counts.
With a line feed behind the brace the log does not open. -/
theorem replays_any_log_sample :
    (∃ after c, openAt "c" ⟨1, .euclidean⟩
        (shelf ⟨1, .euclidean⟩ (Bytes.ofText (Text.ended sampleLines ++ ['{']))) =
          (after, .ok c) ∧ c.index.get? 7 = some [.ofInt 2]) ∧
      (openAt "c" ⟨1, .euclidean⟩
        (shelf ⟨1, .euclidean⟩ (Bytes.ofText (Text.ended (sampleLines ++ [['{']]))))).2 =
          .error (.corrupt "c/vectors.jsonl line 4") := by
  have unbroken : ∀ line ∈ sampleLines, '\n' ∉ line := by decide +kernel
  have garbled : Log.Garbled ['{'] := ⟨by decide +kernel, by decide +kernel⟩
  have home (content : Bytes) : Home (shelf ⟨1, .euclidean⟩ content) "c" ["c"]
      [(headerName, .file (Header.bytes ⟨1, .euclidean⟩)), (logName, .file content)] :=
    ⟨rfl, .inr (by decide), by decide⟩
  have header (content : Bytes) : readHeader "c"
      [(headerName, .file (Header.bytes ⟨1, .euclidean⟩)), (logName, .file content)] =
        .ok ⟨1, .euclidean⟩ := readHeader_bytes rfl "c"
  have torn : Text.Framed (Text.ended sampleLines ++ ['{']) sampleLines ['{'] :=
    ⟨rfl, unbroken, by decide⟩
  have whole : Text.Framed (Text.ended (sampleLines ++ [['{']])) (sampleLines ++ [['{']]) [] :=
    ⟨(List.append_nil _).symm, by decide +kernel, List.not_mem_nil⟩
  constructor
  · obtain ⟨opens, opened, -⟩ := replays_any_log (home _) (header _) rfl torn
    obtain ⟨after, c, done⟩ := opens.2 ⟨sampleLines_pass, .inr garbled⟩
    refine ⟨after, c, done, ?_⟩
    rw [(opened after c done).1.latest]
    decide +kernel
  · obtain ⟨-, -, fails, -⟩ := replays_any_log (home _) (header _) rfl whole
    exact (fails _).2 ⟨sampleLines, ['{'], [[]], rfl, sampleLines_pass,
      .inl ⟨garbled, by decide, rfl⟩⟩

/-! ## Opening again -/

/-! ### In a folder -/

theorem readHeader_congr (same : Entries.get? headerName g = Entries.get? headerName f)
    (path : String) : readHeader path g = readHeader path f := by
  simp only [readHeader, Folder.readText, Folder.read, same]

/-- When the header is settled, the one that is asked for is there. -/
theorem settleHeader_settled (settled : settleHeader path asked f = (g, none)) :
    readHeader path g = .ok asked ∧ f.Keeps g := by
  have settling := settling_settleHeader path asked f
  rw [settled] at settling
  cases settling with
  | found header => exact ⟨header, Folder.Keeps.refl _⟩
  | written noHeader blank isFile headed =>
      exact ⟨readHeader_bytes (by rw [headed, if_pos rfl]) path, headed.keeps noHeader isFile⟩

/-- Replaying the log a second time gives the same index and changes nothing. -/
theorem replayLog_again {index reached : Index}
    (replayed : replayLog path index f = (g, .ok reached)) :
    replayLog path index g = (g, .ok reached) ∧ f.Keeps g ∧
      Entries.get? headerName g = Entries.get? headerName f := by
  cases read : f.readText logName with
  | error e =>
      by_cases present : f.has logName = true
      · rw [replayLog, if_pos present, read] at replayed
        cases replayed
      · have absent := Folder.has_eq_false_iff.1 (Bool.eq_false_iff.2 present)
        have same := replayLog_of_none absent path index
        rw [same] at replayed
        cases replayed
        exact ⟨same, Folder.Keeps.refl f, rfl⟩
  | ok text =>
      have same := replayLog_of_readText read path index
      rw [same] at replayed
      cases outcome : Log.replay index text with
      | error fault =>
          rw [outcome] at replayed
          cases fault <;> cases replayed
      | ok result =>
          obtain ⟨_, cut⟩ := result
          rw [outcome] at same replayed
          cases cut with
          | none =>
              cases replayed
              exact ⟨same, Folder.Keeps.refl f, rfl⟩
          | some kept =>
              cases replayed
              have found : Entries.get? logName (withLog f (Bytes.ofText kept)) =
                  some (.file (Bytes.ofText kept)) := by
                rw [withLog, Entries.get?_insert, if_pos rfl]
              refine ⟨?_, keeps_withLog (isFile_of_readText read) _, ?_⟩
              · rw [replayLog_of_readText (Folder.readText_ofText found),
                  Log.replay_of_cut outcome]
              · rw [withLog, Entries.get?_insert, if_neg (by decide)]

/-- **A folder that was opened opens again, and stays as it is.** -/
theorem openIn_again (opened : openIn path asked f = (g, .ok c)) :
    openIn path asked g = (g, .ok c) ∧ f.Keeps g := by
  unfold openIn at opened
  cases settled : settleHeader path asked f with
  | mk h failure =>
      rw [settled] at opened
      cases failure with
      | some e => cases opened
      | none =>
          obtain ⟨header, kept⟩ := settleHeader_settled settled
          dsimp only at opened
          cases replayed : replayLog path (fresh asked) h with
          | mk last result =>
              rw [show Index.mk asked.metric asked.dimension [] = fresh asked from rfl,
                replayed] at opened
              cases result with
              | error e => cases opened
              | ok index =>
                  cases opened
                  obtain ⟨again, keptLast, sameHeader⟩ := replayLog_again replayed
                  rw [← readHeader_congr sameHeader path] at header
                  rw [openIn_of_readHeader header, again]
                  exact ⟨rfl, kept.trans keptLast⟩

/-! ### On a disk -/

/-- **Opening is idempotent.**  Whatever is on the disk, if a collection opens, it opens
again as the same collection, and the disk stays as the first opening left it. -/
theorem opens_again (opened : openAt path asked disk = (after, .ok c)) :
    openAt path asked after = (after, .ok c) := by
  cases opens_of_openAt opened with
  | inside _ home inside =>
      obtain ⟨again, kept⟩ := openIn_again inside
      rw [openAt_of_home (home.put kept), again, Disk.put_put]
  | cramped makes leads cramped found =>
      -- in such a folder nothing is written
      rw [openAt, Disk.makePath_of_folder leads (sound_of_makePath makes)]
      dsimp only
      rw [leads]
      dsimp only
      rw [cramped, if_pos rfl, found]

/-- A collection with two records, the second of which was torn. -/
def sampleTorn : Disk :=
  shelf ⟨1, .euclidean⟩ ((Log.bytes [⟨7, [.ofInt 1]⟩, ⟨8, [.ofInt 2]⟩]).take 40)

/-- The first opening cuts the torn record off, and the second finds nothing to do. -/
theorem opens_again_sample :
    ∃ after c, openAt "c" ⟨1, .euclidean⟩ sampleTorn = (after, .ok c) ∧
      after.read "c/vectors.jsonl" = .ok (Log.bytes [⟨7, [.ofInt 1]⟩]) ∧
      openAt "c" ⟨1, .euclidean⟩ after = (after, .ok c) := by
  have outcome : (openAt "c" ⟨1, .euclidean⟩ sampleTorn).2.toOption.isSome = true ∧
      (openAt "c" ⟨1, .euclidean⟩ sampleTorn).1.read "c/vectors.jsonl" =
        .ok (Log.bytes [⟨7, [.ofInt 1]⟩]) := by
    decide +kernel
  obtain ⟨succeeds, left⟩ := outcome
  cases opened : openAt "c" ⟨1, .euclidean⟩ sampleTorn with
  | mk after result =>
      rw [opened] at succeeds left
      cases result with
      | error e => cases succeeds
      | ok c => exact ⟨after, c, rfl, left, opens_again opened⟩

end Collection

end Retrieval
