/-
# Retrieval.Collection.Log -- replaying a log

A log is a text with one record a line.  Replaying it puts the records into an
index one after the other, so of several records of one number the last counts.
Blank lines are passed over.  A last line that lacks its line feed and is no
record was torn by a crash: it is left out, and the rest of the log is kept.
Any other line that is no record, and any record whose embedding the index
refuses, ends the replay.
-/
import Retrieval.Collection.Record
import Retrieval.Text.Line

namespace Retrieval

set_option autoImplicit false

namespace Log

/-- The bytes of records, one line each. -/
def bytes (records : List Record) : Bytes := records.flatMap Record.bytes

/-- Why a log cannot be replayed. -/
inductive Fault where
  | unreadable (line : Nat)
  | refused (f : Embedding.Fault)
  deriving DecidableEq, Repr

/-- Replay lines, the first of which has the number `number`.  The answer also
says whether the last line was torn. -/
def replayLines (number : Nat) (index : Index) :
    List (List Char) → Except Fault (Index × Bool)
  | [] => .ok (index, false)
  | line :: rest =>
      let body := Text.trim line
      if body.isEmpty then replayLines (number + 1) index rest
      else
        match Record.read? body with
        | some r =>
            match index.insert r.id r.vector with
            | .error f => .error (.refused f)
            | .ok index => replayLines (number + 1) index rest
        | none =>
            if rest.isEmpty && line.getLast? != some '\n' then .ok (index, true)
            else .error (.unreadable number)

/-- Replay a log into an index: the index after it and, when the last line was
torn, what to cut the log to. -/
def replay (index : Index) (text : List Char) : Except Fault (Index × Option (List Char)) :=
  let lines := Text.lines text
  match replayLines 1 index lines with
  | .error f => .error f
  | .ok (index, torn) => .ok (index, if torn then some lines.dropLast.flatten else none)

end Log

end Retrieval
