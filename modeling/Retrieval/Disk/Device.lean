/-
# Retrieval.Disk.Device -- appending through a device that may fail

A device answers each request to write: it takes some of the bytes, or fails.
`Device` leaves the answers open -- they may depend on how often it was asked and
on the length of the file -- and adds whether the file opens, whether its length
can be told, whether the final sync succeeds, and whether the file can be cut back.

Lines are appended piece by piece through a buffer.  A piece that does not fit
sends what is buffered to the device first, and the end does so once more; what
is sent together is a `Packet`.  A failure stops the appending, and what is still
buffered is then offered to the device one last time.  Whatever the device does,
the file grows by bytes of the stream in order (`Appender.drainFor_isPrefix`), so
cutting it back to its length from before undoes a failed append.  When that fails
too, the fragment stays, and its failure is the one that is told
(`Appender.settle`).

It is told where a failure is met: by a piece inside of a line, or later, by a line
end or at the end of all (`Site`).
-/
import Retrieval.Disk.Basic

namespace Retrieval

set_option autoImplicit false

/-- How a device answers: `write asked length count` is the answer to a request,
after `asked` earlier ones, to write `count` bytes behind a file of `length`
bytes.  The others are why a file does not open for appending, why its length
cannot be told, why the sync fails and why the file cannot be cut back, if so. -/
structure Device where
  opening : Option FileError := none
  measuring : Option FileError := none
  write : (asked length count : Nat) → Except FileError Nat
  sync : Option FileError := none
  cut : Option FileError := none

namespace Device

/-- The device that takes everything. -/
def reliable : Device where
  write := fun _ _ count => .ok count

/-- The device that lets no file grow past a limit. -/
def limited (limit : Nat) : Device where
  write := fun _ length count =>
    if length < limit then .ok (min count (limit - length)) else .error .tooLarge

end Device

/-! ## Packets -/

/-- Where a failure is met: inside of a line, or behind it. -/
inductive Site where
  | inside
  | behind
  deriving DecidableEq, Repr

/-- Why lines could not be appended. -/
structure AppendError where
  site : Site
  cause : FileError
  deriving DecidableEq, Repr

/-- A piece of what is appended. -/
structure Piece where
  site : Site
  bytes : Bytes

namespace Piece

/-- The pieces of lines, each given without its line feed. -/
def ofLines (lines : List (List Bytes)) : List Piece :=
  lines.flatMap fun line => line.map (Piece.mk .inside) ++ [⟨.behind, [10]⟩]

def joined (pieces : List Piece) : Bytes := pieces.flatMap Piece.bytes

end Piece

/-- Bytes that are sent together, and by what they are sent. -/
structure Packet where
  site : Site
  bytes : Bytes

namespace Packet

/-- How many bytes are sent together at most. -/
def capacity : Nat := 8192

/-- The packets of pieces behind those that are held, the last one first, with
`size` bytes in all. -/
def packFrom (held : List Bytes) (size : Nat) : List Piece → List Packet
  | [] => [⟨.behind, held.reverse.flatten⟩]
  | p :: rest =>
      let size' := size + p.bytes.length
      if size' ≤ capacity then packFrom (p.bytes :: held) size' rest
      else ⟨p.site, held.reverse.flatten⟩ :: packFrom [p.bytes] p.bytes.length rest

def pack (pieces : List Piece) : List Packet := packFrom [] 0 pieces

/-- The packets hold what is held and the bytes of the pieces, in order. -/
theorem packFrom_bytes (held : List Bytes) (size : Nat) (pieces : List Piece) :
    (packFrom held size pieces).flatMap Packet.bytes =
      held.reverse.flatten ++ Piece.joined pieces := by
  induction pieces generalizing held size with
  | nil => simp [packFrom, Piece.joined]
  | cons p rest ih =>
      unfold packFrom
      simp only
      split
      · simp [ih, Piece.joined]
      · simp [ih, Piece.joined]

/-- Packing loses nothing. -/
theorem pack_bytes (pieces : List Piece) :
    (pack pieces).flatMap Packet.bytes = Piece.joined pieces := by
  simp [pack, packFrom_bytes]

end Packet

/-! ## Appending -/

/-- A file being appended to: what it holds, what is buffered, and how often the
device was asked. -/
structure Appender where
  file : Bytes
  buffer : Bytes := []
  asked : Nat := 0

namespace Appender

/-- Offer the buffer to the device until it is empty, at most `n` times. -/
def drainFor (device : Device) : Nat → Appender → Appender × Option FileError
  | 0, a => (a, none)
  | n + 1, a =>
      if a.buffer.isEmpty then (a, none)
      else
        match device.write a.asked a.file.length a.buffer.length with
        | .error e => ({ a with asked := a.asked + 1 }, some e)
        | .ok 0 => ({ a with asked := a.asked + 1 }, some .nothingWritten)
        | .ok (count + 1) =>
            drainFor device n
              { file := a.file ++ a.buffer.take (count + 1)
                buffer := a.buffer.drop (count + 1)
                asked := a.asked + 1 }

/-- Offer the buffer to the device until it is empty.  Each success takes at
least one byte, so there are no more requests than bytes. -/
def drain (device : Device) (a : Appender) : Appender × Option FileError :=
  drainFor device a.buffer.length a

def send (device : Device) : List Packet → Appender → Appender × Option AppendError
  | [], a => (a, none)
  | p :: rest, a =>
      match drain device { a with buffer := p.bytes } with
      | (a, some e) => (a, some ⟨p.site, e⟩)
      | (a, none) => send device rest a

/-- What a file holds after an attempt to append lines, and how the attempt ended. -/
def attempt (device : Device) (content : Bytes) (lines : List (List Bytes)) :
    Bytes × Option AppendError :=
  match send device (Packet.pack (Piece.ofLines lines)) { file := content } with
  | (a, some e) => ((drain device a).1.file, some e)
  | (a, none) => (a.file, device.sync.map fun e => ⟨.behind, e⟩)

/-- Draining only ever appends to the file. -/
theorem drainFor_isPrefix (device : Device) (n : Nat) (a : Appender) :
    a.file.isPrefixOf (drainFor device n a).1.file = true := by
  induction n generalizing a with
  | zero => simp [drainFor, List.isPrefixOf_iff_prefix]
  | succ n ih =>
      unfold drainFor
      split
      · simp [List.isPrefixOf_iff_prefix]
      · split
        · simp [List.isPrefixOf_iff_prefix]
        · simp [List.isPrefixOf_iff_prefix]
        · refine List.isPrefixOf_iff_prefix.2
            (List.IsPrefix.trans ?_ (List.isPrefixOf_iff_prefix.1 (ih _)))
          exact List.prefix_append _ _

/-- What an open file holds after lines were appended to it, and how that ended.  After
a failure the file is cut back to its length from before, if it can be. -/
def settle (device : Device) (content : Bytes) (lines : List (List Bytes)) :
    Bytes × Option AppendError :=
  match device.measuring with
  | some cause => (content, some ⟨.behind, cause⟩)
  | none =>
      match attempt device content lines, device.cut with
      | (written, none), _ => (written, none)
      | (written, some e), none => (written.take content.length, some e)
      | (written, some _), some cause => (written, some ⟨.behind, cause⟩)

end Appender

/-- Append lines to a file, which is made when there is none. -/
def Folder.appendAll (f : Folder) (device : Device) (name : String) (lines : List (List Bytes)) :
    Folder × Option AppendError :=
  let append (content : Bytes) : Folder × Option AppendError :=
    let (content, failure) := Appender.settle device content lines
    (Entries.insert name (.file content) f, failure)
  match device.opening, Entries.get? name f with
  | some cause, _ => (f, some ⟨.behind, cause⟩)
  | none, some (.folder _) => (f, some ⟨.behind, .isDirectory⟩)
  | none, some (.locked _) => (f, some ⟨.behind, .accessDenied⟩)
  | none, some (.file content) => append content
  | none, none => append []

end Retrieval
