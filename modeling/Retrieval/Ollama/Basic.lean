/-
# Retrieval.Ollama.Basic -- the embedding service as an embedder

A client knows the address of the service and the model to ask for.  Every call
is one `Post`, and what comes back is a `Reply` or nothing at all.  How a post is
carried is left open: a `Carrier` is any function that answers posts and may
keep a state, so a script of replies, a log of posts and a real connection are
all carriers.

An empty batch is answered without a post.  A reply counts only when its status
is one of success, its body can be read, and it has as many embeddings as there
were texts.
-/
import Retrieval.Embedder
import Retrieval.Ollama.Message

namespace Retrieval

set_option autoImplicit false

namespace Ollama

/-! ## Posts and replies -/

/-- A message to an address. -/
structure Post where
  url : String
  body : String
  deriving DecidableEq, Repr

/-- What the service answers. -/
structure Reply where
  status : Nat
  body : String
  deriving DecidableEq, Repr

namespace Reply

def isSuccess (r : Reply) : Bool := 200 ≤ r.status && r.status < 300

/-- The statuses of replies that have no content: the connection is used otherwise from
now on, there is nothing to say, and there is nothing new. -/
def emptyStatuses : List Nat := [101, 204, 304]

def content (r : Reply) : List Char :=
  if emptyStatuses.contains r.status then [] else r.body.toList

/-- Whether this is a reply at all.  A status has three digits, and one that starts with
a one only announces a reply, unless the connection is used otherwise. -/
def isFinal (r : Reply) : Bool := r.status = 101 || (200 ≤ r.status && r.status < 1000)

/-- The content as a text to show, without a byte order mark at its start. -/
def shown (r : Reply) : String :=
  match r.content with
  | '\uFEFF' :: rest => String.ofList rest
  | text => String.ofList text

end Reply

/-- What carries a post to the service; a failure has a reason. -/
abbrev Carrier (σ : Type) := Post → σ → Except String Reply × σ

/-! ## The client -/

/-- The address of the service, which does not end in a slash, and the model. -/
structure Client where
  base : String
  model : String
  deriving DecidableEq, Repr

namespace Client

variable {σ : Type}

/-- The address without the slashes at its end. -/
def trimSlashes (url : String) : String :=
  String.ofList ((url.toList.reverse.dropWhile fun c => c = '/').reverse)

/-- The client of a service and a model. -/
def ofAddress (base model : String) : Client := { base := trimSlashes base, model }

/-- Where embeddings are asked for. -/
def url (c : Client) : String := c.base ++ "/api/embed"

/-- The post that asks for embeddings. -/
def post (c : Client) (input : Input) : Post :=
  { url := c.url, body := String.ofList (EmbedRequest.text { model := c.model, input }) }

/-- Embeddings are accepted when there is one for each text. -/
def accept (expected : Nat) (embeddings : List Embedding) :
    Except EmbedderError (List Embedding) :=
  if embeddings.isEmpty then .error .noEmbeddings
  else if embeddings.length ≠ expected then .error (.countMismatch expected embeddings.length)
  else .ok embeddings

def embeddings (expected : Nat) (r : Reply) : Except EmbedderError (List Embedding) :=
  if !r.isFinal then .error (.request "no reply")
  else if r.isSuccess then
    match EmbedResponse.read? r.content with
    | none => .error (.request "error decoding response body")
    | some response => accept expected response.embeddings
  else .error (.api r.shown)

def ask (c : Client) (carry : Carrier σ) (input : Input) (s : σ) :
    Except EmbedderError (List Embedding) × σ :=
  match carry (c.post input) s with
  | (.error reason, s) => (.error (.request reason), s)
  | (.ok reply, s) => (embeddings input.size reply, s)

def one (c : Client) (carry : Carrier σ) (text : String) (s : σ) :
    Except EmbedderError Embedding × σ :=
  match c.ask carry (.one text) s with
  | (.error e, s) => (.error e, s)
  | (.ok (v :: _), s) => (.ok v, s)
  | (.ok [], s) => (.error .noEmbeddings, s)

/-- Embed a batch; an empty one needs no post. -/
def many (c : Client) (carry : Carrier σ) (texts : List String) (s : σ) :
    Except EmbedderError (List Embedding) × σ :=
  if texts.isEmpty then (.ok [], s) else c.ask carry (.many texts) s

def embedder (c : Client) (carry : Carrier σ) : Embedder σ where
  name := "ollama"
  one := c.one carry
  many := c.many carry

end Client

end Ollama

end Retrieval
