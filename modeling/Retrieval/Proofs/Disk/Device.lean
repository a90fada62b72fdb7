/-
# Retrieval.Proofs.Disk.Device -- appending is all or nothing

Whatever a device answers, lines are appended to a file (`Folder.appending_appendAll`)
completely or not at all (`Appender.settle_of_ok`, `Appender.settle_of_error`), as long as
the file can be cut back.  When no request fails, everything that was to be sent has been
sent (`Appender.send_of_ok`); and when one does, the file has only grown, so that cutting it
back to its old length gives its old content.  When it cannot be cut back, it holds its
old content and then a fragment of the lines (`Appender.settle_isPrefix`).

A device that takes something of every request never makes an appending fail
(`Folder.appendAll_obliging`).
-/
import Retrieval.Disk.Device
import Retrieval.Proofs.Disk.Folder

namespace Retrieval

set_option autoImplicit false

/-- The file opens, its length can be told, the device takes at least a part of what it is
asked to write, and the sync succeeds. -/
structure Device.Obliging (device : Device) : Prop where
  opens : device.opening = none
  measures : device.measuring = none
  takes : ∀ asked length count, 0 < count →
    ∃ taken, device.write asked length count = .ok (taken + 1)
  syncs : device.sync = none

theorem Device.reliable_obliging : Device.reliable.Obliging where
  opens := rfl
  measures := rfl
  takes := by
    intro asked length count positive
    exact ⟨count - 1, by rw [reliable, Nat.sub_add_cancel positive]⟩
  syncs := rfl

/-- The device that lets no file grow past a limit, and none be cut back. -/
def Device.irrevocable (limit : Nat) : Device :=
  { Device.limited limit with cut := some (.other "Input/output error (os error 5)") }

namespace Appender

variable {device : Device} {a b : Appender}

/-! ## Draining -/

/-- Draining without failure sends the whole buffer. -/
theorem drainFor_of_ok {n : Nat} (enough : a.buffer.length ≤ n)
    (done : drainFor device n a = (b, none)) : b.file = a.file ++ a.buffer := by
  induction n generalizing a with
  | zero =>
      have empty : a.buffer = [] := List.length_eq_zero_iff.1 (Nat.le_zero.1 enough)
      cases done
      rw [empty, List.append_nil]
  | succ n ih =>
      unfold drainFor at done
      split at done
      · rename_i empty
        cases done
        rw [List.isEmpty_iff.1 empty, List.append_nil]
      · split at done
        · cases done
        · cases done
        · rename_i count answer
          have rest := ih (by simp only [List.length_drop]; omega) done
          rw [rest, List.append_assoc, List.take_append_drop]

theorem drain_of_ok (done : drain device a = (b, none)) : b.file = a.file ++ a.buffer :=
  drainFor_of_ok (Nat.le_refl _) done

theorem drain_isPrefix (device : Device) (a : Appender) : a.file <+: (drain device a).1.file :=
  List.isPrefixOf_iff_prefix.1 (drainFor_isPrefix device a.buffer.length a)

/-! ## Sending -/

/-- Sending without failure sends all packets, in order. -/
theorem send_of_ok {packets : List Packet} (done : send device packets a = (b, none)) :
    b.file = a.file ++ packets.flatMap Packet.bytes := by
  induction packets generalizing a with
  | nil =>
      cases done
      simp
  | cons p packets ih =>
      rw [send] at done
      cases drained : drain device { a with buffer := p.bytes } with
      | mk c failure =>
          rw [drained] at done
          cases failure with
          | some e => cases done
          | none =>
              rw [ih done, drain_of_ok drained, List.flatMap_cons, List.append_assoc]

theorem send_isPrefix (device : Device) (packets : List Packet) (a : Appender) :
    a.file <+: (send device packets a).1.file := by
  induction packets generalizing a with
  | nil => exact List.prefix_rfl
  | cons p packets ih =>
      have grown := drain_isPrefix device { a with buffer := p.bytes }
      rw [send]
      cases drained : drain device { a with buffer := p.bytes } with
      | mk c failure =>
          rw [drained] at grown
          cases failure with
          | some e => exact grown
          | none => exact grown.trans (ih c)

/-! ## Attempts -/

variable {content written : Bytes} {lines : List (List Bytes)}

/-- An attempt without failure appends all lines. -/
theorem attempt_of_ok (done : attempt device content lines = (written, none)) :
    written = content ++ Piece.joined (Piece.ofLines lines) := by
  unfold attempt at done
  split at done
  · cases done
  · rename_i sent
    obtain ⟨rfl, -⟩ := Prod.mk.inj done
    rw [send_of_ok sent, Packet.pack_bytes]

/-- After any attempt the old content is where it was. -/
theorem attempt_isPrefix (device : Device) (content : Bytes) (lines : List (List Bytes)) :
    content <+: (attempt device content lines).1 := by
  have grown := send_isPrefix device (Packet.pack (Piece.ofLines lines)) { file := content }
  unfold attempt
  split
  · rename_i sent
    rw [sent] at grown
    exact grown.trans (drain_isPrefix device _)
  · rename_i sent
    rw [sent] at grown
    exact grown

/-! ## Devices that do not fail -/

theorem drainFor_obliging (obliging : device.Obliging) {n : Nat} (enough : a.buffer.length ≤ n) :
    (drainFor device n a).2 = none := by
  induction n generalizing a with
  | zero => rfl
  | succ n ih =>
      unfold drainFor
      split
      · rfl
      · rename_i buffered
        have positive : 0 < a.buffer.length :=
          List.length_pos_iff.2 fun none => buffered (List.isEmpty_iff.2 none)
        obtain ⟨taken, written⟩ := obliging.takes a.asked a.file.length _ positive
        simp only [written]
        apply ih
        rw [List.length_drop]
        omega

theorem send_obliging (obliging : device.Obliging) (packets : List Packet) (a : Appender) :
    (send device packets a).2 = none := by
  induction packets generalizing a with
  | nil => rfl
  | cons p packets ih =>
      have drained : (drain device { a with buffer := p.bytes }).2 = none :=
        drainFor_obliging obliging (Nat.le_refl _)
      rw [send]
      cases result : drain device { a with buffer := p.bytes } with
      | mk c failure =>
          rw [result] at drained
          cases drained
          exact ih c

/-- An obliging device takes every line. -/
theorem attempt_obliging (obliging : device.Obliging) (content : Bytes)
    (lines : List (List Bytes)) : (attempt device content lines).2 = none := by
  have sent := send_obliging obliging (Packet.pack (Piece.ofLines lines)) { file := content }
  unfold attempt
  split
  · rename_i failure
    rw [failure] at sent
    cases sent
  · rw [obliging.syncs]
    rfl

/-! ## Cutting back -/

variable {e : AppendError}

/-- **Lines that are appended are appended completely.** -/
theorem settle_of_ok (done : settle device content lines = (written, none)) :
    written = content ++ Piece.joined (Piece.ofLines lines) := by
  unfold settle at done
  cases measured : device.measuring with
  | some cause => simp [measured] at done
  | none =>
      cases attempted : attempt device content lines with
      | mk reached failure =>
          cases failure with
          | none =>
              simp only [measured, attempted, Prod.mk.injEq, and_true] at done
              rw [← done, attempt_of_ok attempted]
          | some e => cases cut : device.cut <;> simp [measured, attempted, cut] at done

/-- **A failed appending leaves the content as it was,** when the file can be cut back. -/
theorem settle_of_error (cuts : device.cut = none)
    (failed : settle device content lines = (written, some e)) : written = content := by
  have kept := attempt_isPrefix device content lines
  unfold settle at failed
  cases measured : device.measuring with
  | some cause =>
      simp only [measured, Prod.mk.injEq] at failed
      exact failed.1.symm
  | none =>
      cases attempted : attempt device content lines with
      | mk reached failure =>
          rw [attempted] at kept
          cases failure with
          | none => simp [measured, attempted] at failed
          | some cause =>
              simp only [measured, attempted, cuts, Prod.mk.injEq] at failed
              rw [← failed.1, ← List.prefix_iff_eq_take.1 kept]

/-- However an appending ends, the old content is where it was. -/
theorem settle_isPrefix (device : Device) (content : Bytes) (lines : List (List Bytes)) :
    content <+: (settle device content lines).1 := by
  have kept := attempt_isPrefix device content lines
  unfold settle
  cases device.measuring with
  | some cause => exact List.prefix_rfl
  | none =>
      cases attempted : attempt device content lines with
      | mk reached failure =>
          rw [attempted] at kept
          cases failure with
          | none => exact kept
          | some e =>
              cases device.cut with
              | none =>
                  -- cutting back leaves no more than the old content
                  exact ⟨[], (List.append_nil content).trans (List.prefix_iff_eq_take.1 kept)⟩
              | some cause => exact kept

theorem settle_obliging (obliging : device.Obliging) (content : Bytes)
    (lines : List (List Bytes)) : (settle device content lines).2 = none := by
  have taken := attempt_obliging obliging content lines
  unfold settle
  rw [obliging.measures]
  cases attempted : attempt device content lines with
  | mk reached failure =>
      rw [attempted] at taken
      cases taken
      rfl

end Appender

namespace Folder

variable {f : Folder} {device : Device} {name : String}

/-- The bytes of a file, none where there is no file. -/
def content (f : Folder) (name : String) : Bytes :=
  match Entries.get? name f with
  | some (.file content) | some (.locked content) => content
  | _ => []

theorem content_of_file {bytes : Bytes} (found : Entries.get? name f = some (.file bytes)) :
    f.content name = bytes := by
  rw [content, found]

theorem content_of_none (absent : Entries.get? name f = none) : f.content name = [] := by
  rw [content, absent]

/-- How lines are appended: the file does not open and nothing has changed, or the file is
there and holds what the appending leaves in it. -/
inductive Appending (f : Folder) (device : Device) (name : String) (lines : List (List Bytes)) :
    Folder → Option AppendError → Prop
  | unopened (e : AppendError) : Appending f device name lines f (some e)
  | opened (isFile : f.IsFile name) {written : Bytes} {failure : Option AppendError}
      (settled : Appender.settle device (f.content name) lines = (written, failure)) :
      Appending f device name lines (Entries.insert name (.file written) f) failure

/-- **Lines are appended in one of these ways.** -/
theorem appending_appendAll (f : Folder) (device : Device) (name : String)
    (lines : List (List Bytes)) :
    Appending f device name lines (f.appendAll device name lines).1
      (f.appendAll device name lines).2 := by
  unfold appendAll
  cases device.opening with
  | some cause => exact .unopened _
  | none =>
      cases found : Entries.get? name f with
      | none => exact .opened (isFile_of_none found) (by rw [content_of_none found])
      | some node =>
          cases node with
          | file bytes => exact .opened (isFile_of_file found) (by rw [content_of_file found])
          | locked bytes => exact .unopened _
          | folder below => exact .unopened _

theorem appendAll_obliging (obliging : device.Obliging) (isFile : f.IsFile name)
    (lines : List (List Bytes)) : (f.appendAll device name lines).2 = none := by
  have taken (content : Bytes) := Appender.settle_obliging obliging content lines
  unfold appendAll
  rw [obliging.opens]
  cases found : Entries.get? name f with
  | none => exact taken []
  | some node =>
      obtain ⟨bytes, rfl⟩ := isFile node found
      exact taken bytes

end Folder

end Retrieval
