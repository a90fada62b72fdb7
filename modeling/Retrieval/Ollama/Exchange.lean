/-
# Retrieval.Ollama.Exchange -- posts and replies as octets

A post is sent as a head of lines, an empty line and the body.  A reply comes back
the same way: its first line has the status.  Its body is all that follows, or
comes in chunks, each behind a line with its size in base sixteen.  Octets that
are no text are read as the replacement character.
-/
import Retrieval.Ollama.Address
import Retrieval.Ollama.Basic
import Retrieval.Text.Line

namespace Retrieval

set_option autoImplicit false

namespace Ollama

/-! ## Posts -/

/-- The octets of a post to an address. -/
def Post.octets (p : Post) (a : Address) : Bytes :=
  let body := Bytes.ofText p.body.toList
  let head :=
    [s!"POST {a.target} HTTP/1.1",
     s!"host: {a.host}:{a.port}",
     "content-type: application/json",
     "accept: */*",
     s!"content-length: {body.length}",
     "connection: close", ""]
  Bytes.ofText (String.join (head.map (· ++ "\r\n"))).toList ++ body

/-! ## Replies -/

namespace Reply

/-- The line that octets start with, without its end, and what follows. -/
def takeLine : Bytes → Option (Bytes × Bytes)
  | [] => none
  | 13 :: 10 :: rest => some ([], rest)
  | b :: rest => (takeLine rest).map fun (line, rest) => (b :: line, rest)

/-- The lines up to an empty one, and what follows; there are at most `n`. -/
def takeHead : Nat → Bytes → Option (List Bytes × Bytes)
  | 0, _ => none
  | n + 1, bytes =>
      match takeLine bytes with
      | none => none
      | some ([], rest) => some ([], rest)
      | some (line, rest) => (takeHead n rest).map fun (lines, rest) => (line :: lines, rest)

/-- The text of a line, in lower case. -/
def lineText (line : Bytes) : List Char := line.lossyText.map Char.toLower

/-- The body of chunks, at most `n`; it ends with an empty chunk. -/
def joinChunks : Nat → Bytes → Option Bytes
  | 0, _ => none
  | n + 1, bytes => do
      let (line, rest) ← takeLine bytes
      let size ← Text.number? 16 (Text.trim (line.lossyText.takeWhile fun c => c ≠ ';'))
      if size = 0 then some []
      else if rest.length < size then none
      else do
        let (_, behind) ← takeLine (rest.drop size)
        return rest.take size ++ (← joinChunks n behind)

/-- The status in the first line of a reply. -/
def status? (line : Bytes) : Option Nat :=
  let words := line.lossyText.dropWhile fun c => c ≠ ' '
  Text.number? 10 ((words.drop 1).takeWhile fun c => c ≠ ' ')

def isChunked (lines : List Bytes) : Bool :=
  lines.any fun line =>
    let text := lineText line
    "transfer-encoding:".toList.isPrefixOf text && Text.contains "chunked".toList text

def ofOctets? (bytes : Bytes) : Option Reply := do
  match ← takeHead bytes.length bytes with
  | (first :: lines, rest) =>
      let body ← if isChunked lines then joinChunks rest.length rest else some rest
      return { status := ← status? first, body := String.ofList body.lossyText }
  | ([], _) => none

end Reply

end Ollama

end Retrieval
