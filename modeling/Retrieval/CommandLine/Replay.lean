/-
# Retrieval.CommandLine.Replay -- running the program on replies known so far

The program is a function, so it can be run again.  A replay answers posts from
the replies that are known, and at the first post beyond them it keeps the post
and fails.  Whoever carries posts sends that one, adds the reply, and runs the
program once more; when nothing is kept, the run is the one that counts.
-/
import Retrieval.Ollama.Basic

namespace Retrieval

set_option autoImplicit false

namespace CommandLine

/-- What came of a post. -/
abbrev Answer := Except String Ollama.Reply

/-- The answers that are left, and the post that has none. -/
structure Replay where
  answers : List Answer
  open? : Option Ollama.Post := none

namespace Replay

/-- Answer posts from what is known. -/
def carry : Ollama.Carrier Replay := fun post r =>
  match r.open?, r.answers with
  | none, answer :: answers => (answer, { r with answers })
  | none, [] => (.error "not answered yet", { r with open? := some post })
  | some _, _ => (.error "not answered yet", r)

end Replay

end CommandLine

end Retrieval
