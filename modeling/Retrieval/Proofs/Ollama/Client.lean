/-
# Retrieval.Proofs.Ollama.Client -- one post for each call, and what its reply settles

A call sends one post to the address without its slashes at the end, or none if there is
nothing to embed; the carrier that keeps what it carries shows it (`Carrier.recording`).  The
post is decoded as the request of the model and the input.

The reply settles the result (`Reply.Settles`): whether there are embeddings, or which of the
errors there is, is told by its status, its content and the number of texts, and there is no
other way for a call to end.

A reply does not count as it is written: with some statuses its content is empty whatever its
body, an error is shown without a byte order mark, and some statuses are no reply
(`Client.replies_are_not_as_written`).
-/
import Mathlib.Data.List.TakeWhile
import Retrieval.Ollama.Basic
import Retrieval.Proofs.Ollama.Message

namespace Retrieval

set_option autoImplicit false

namespace Ollama

variable {σ : Type}

/-! ## Addresses -/

/-- What is left of an address without the slashes at its end. -/
structure IsStem (base stem : String) : Prop where
  slashes : ∃ n, base.toList = stem.toList ++ List.replicate n '/'
  bare : stem.toList.getLast? ≠ some '/'

theorem isStem_trimSlashes (base : String) : IsStem base (Client.trimSlashes base) := by
  have whole := List.takeWhile_append_dropWhile (p := fun c => decide (c = '/'))
    (l := base.toList.reverse)
  have slashes : base.toList.reverse.takeWhile (fun c => decide (c = '/')) =
      List.replicate (base.toList.reverse.takeWhile fun c => decide (c = '/')).length '/' := by
    refine List.eq_replicate_of_mem fun c member => ?_
    simpa using List.mem_takeWhile_imp member
  constructor
  · refine ⟨(base.toList.reverse.takeWhile fun c => decide (c = '/')).length, ?_⟩
    rw [Client.trimSlashes, String.toList_ofList, ← List.reverse_replicate, ← slashes,
      ← List.reverse_append, whole, List.reverse_reverse]
  · rw [Client.trimSlashes, String.toList_ofList, List.getLast?_reverse]
    intro last
    have kept := List.head?_dropWhile_not (fun c => decide (c = '/')) base.toList.reverse
    rw [last] at kept
    simp at kept

/-! ## Replies -/

/-- How a reply to a request for so many embeddings settles the result. -/
structure Reply.Settles (r : Reply) (count : Nat) (result : Except EmbedderError (List Embedding)) :
    Prop where
  accepted : ∀ vs, result = .ok vs ↔
    r.isSuccess = true ∧ vs.length = count ∧
      ∃ response, EmbedResponse.read? r.content = some response ∧ response.embeddings = vs
  refused : ∀ message, result = .error (.api message) ↔
    r.isFinal = true ∧ r.isSuccess = false ∧ message = r.shown
  undecodable : (∃ reason, result = .error (.request reason)) ↔
    r.isFinal = false ∨ r.isSuccess = true ∧ EmbedResponse.read? r.content = none
  nothing : result = .error .noEmbeddings ↔
    r.isSuccess = true ∧
      ∃ response, EmbedResponse.read? r.content = some response ∧ response.embeddings = []
  mismatch : ∀ expected got, result = .error (.countMismatch expected got) ↔
    r.isSuccess = true ∧ expected = count ∧ got ≠ 0 ∧ got ≠ count ∧
      ∃ response, EmbedResponse.read? r.content = some response ∧ response.embeddings.length = got

theorem Reply.isFinal_of_isSuccess {r : Reply} (success : r.isSuccess = true) :
    r.isFinal = true := by
  simp only [isSuccess, isFinal, Bool.and_eq_true, Bool.or_eq_true, decide_eq_true_eq] at *
  omega

/-- A reply is taken as it is written, unless its status says that it has no content, or it
is shown without the byte order mark at its start. -/
theorem Reply.as_written {r : Reply} (ordinary : r.status ∉ emptyStatuses) :
    r.content = r.body.toList ∧ (r.body.toList.head? ≠ some '\uFEFF' → r.shown = r.body) := by
  have content : r.content = r.body.toList := by
    rw [Reply.content, if_neg (by simpa using ordinary)]
  refine ⟨content, fun unmarked => ?_⟩
  unfold shown
  rw [content]
  split
  · rename_i rest marked
    rw [marked] at unmarked
    exact absurd rfl unmarked
  · exact String.ofList_toList

/-- **A reply settles the result.** -/
theorem Reply.settles (r : Reply) {count : Nat} (some : 0 < count) :
    r.Settles count (Client.embeddings count r) := by
  unfold Client.embeddings
  cases final : r.isFinal with
  | false =>
      have failure : r.isSuccess = false := by
        rw [Bool.eq_false_iff]
        intro success
        rw [isFinal_of_isSuccess success] at final
        cases final
      constructor <;> simp [final, failure]
  | true =>
      cases success : r.isSuccess with
      | false => constructor <;> simp [final, success, eq_comm]
      | true =>
          cases isRead : EmbedResponse.read? r.content with
          | none => constructor <;> simp [final, success, isRead]
          | some response =>
              have accepted : Client.accept count response.embeddings =
                  if response.embeddings = [] then .error .noEmbeddings
                  else if response.embeddings.length ≠ count then
                    .error (.countMismatch count response.embeddings.length)
                  else .ok response.embeddings := by
                simp [Client.accept]
              simp only [Bool.not_true, Bool.false_eq_true, if_false, if_true, accepted]
              by_cases none : response.embeddings = []
              · constructor <;> simp [final, success, isRead, none]
                · rintro vs fits rfl
                  exact Nat.ne_of_lt some fits
                · rintro _ got - more - rfl
                  exact more rfl
              · by_cases fits : response.embeddings.length = count
                · constructor <;> simp [final, success, isRead, none, fits]
                  rintro _ got - - other rfl
                  exact other rfl
                · constructor <;> simp [final, success, isRead, none, fits]
                  · rintro vs fits' rfl
                    exact fits fits'
                  · intro expected got
                    constructor
                    · rintro ⟨rfl, rfl⟩
                      exact ⟨rfl, by simpa using none, fits, rfl⟩
                    · rintro ⟨rfl, -, -, rfl⟩
                      exact ⟨rfl, rfl⟩

/-! ## Calls -/

/-- A carrier that keeps the posts it carries. -/
def Carrier.recording (carry : Carrier σ) : Carrier (List Post × σ) := fun post (sent, s) =>
  ((carry post s).1, sent ++ [post], (carry post s).2)

/-- What is seen of one call: a single post, which goes to the place for embeddings at a stem and
is decoded as the request for an input, and a result that is settled by the reply.  Where none
comes the call fails for that reason. -/
def AsksOnce (stem model : String) (input : Input) (carry : Carrier σ) (sent : List Post) (s : σ)
    (outcome : Except EmbedderError (List Embedding) × List Post × σ) : Prop :=
  ∃ post : Post, post.url = stem ++ "/api/embed" ∧
    EmbedRequest.read? post.body.toList = some { model, input } ∧
    outcome.2 = (sent ++ [post], (carry post s).2) ∧
    (∀ reply, (carry post s).1 = .ok reply → reply.Settles input.size outcome.1) ∧
    ∀ reason, (carry post s).1 = .error reason → outcome.1 = .error (.request reason)

namespace Client

variable (c : Client) (carry : Carrier σ) (sent : List Post) (s : σ)

/-- What a request comes to. -/
theorem ask_recording (input : Input) :
    c.ask carry.recording input (sent, s) =
      (match (carry (c.post input) s).1 with
        | .error reason => .error (.request reason)
        | .ok reply => embeddings input.size reply,
      sent ++ [c.post input], (carry (c.post input) s).2) := by
  unfold ask Carrier.recording
  dsimp only
  cases (carry (c.post input) s).1 <;> rfl

/-- **A request is one post,** and its reply settles the result. -/
theorem ask_asksOnce {input : Input} (some : 0 < input.size) :
    AsksOnce c.base c.model input carry sent s (c.ask carry.recording input (sent, s)) := by
  have decoded : EmbedRequest.read? (c.post input).body.toList =
      Option.some { model := c.model, input } := by
    rw [post, String.toList_ofList]
    exact EmbedRequest.read?_text _
  rw [ask_recording]
  refine ⟨c.post input, rfl, decoded, rfl, fun reply replied => ?_, fun reason replied => ?_⟩
  · rw [replied]
    exact reply.settles some
  · rw [replied]

/-- One text is a request for one embedding. -/
theorem one_eq_ask (text : String) :
    (c.one carry.recording text (sent, s)).map (Except.map fun v => [v]) id =
      c.ask carry.recording (.one text) (sent, s) := by
  have asked : AsksOnce c.base c.model (.one text) carry sent s
      (c.ask carry.recording (.one text) (sent, s)) := c.ask_asksOnce carry sent s Nat.one_pos
  have single (vs : List Embedding)
      (done : (c.ask carry.recording (.one text) (sent, s)).1 = .ok vs) : vs.length = 1 := by
    obtain ⟨post, -, -, -, settled, failed⟩ := asked
    cases replied : (carry post s).1 with
    | error reason =>
        rw [failed reason replied] at done
        cases done
    | ok reply => exact (((settled reply replied).accepted vs).1 done).2.1
  unfold one
  generalize c.ask carry.recording (.one text) (sent, s) = outcome at single
  obtain ⟨result, kept⟩ := outcome
  cases result with
  | error e => rfl
  | ok vs =>
      obtain ⟨v, rfl⟩ := List.length_eq_one_iff.1 (single vs rfl)
      rfl

/-- **Each call is one post, and its reply settles the result.**  Nothing is sent for an empty
batch.  Any other call sends a single post to the address without the slashes at its end,
which is decoded as the request of the model and the input, a batch of one as a batch; of the
reply its status, its content and the number of texts tell whether the embeddings are given
or which error there is. -/
theorem each_call_is_one_post (base model : String) :
    ∃ stem, IsStem base stem ∧
      (∀ {σ : Type} (carry : Carrier σ) (sent : List Post) (s : σ),
        (ofAddress base model).many carry.recording [] (sent, s) = (.ok [], sent, s) ∧
        (∀ text, AsksOnce stem model (.one text) carry sent s
          (((ofAddress base model).one carry.recording text (sent, s)).map
            (Except.map fun v => [v]) id)) ∧
        ∀ texts, texts ≠ [] → AsksOnce stem model (.many texts) carry sent s
          ((ofAddress base model).many carry.recording texts (sent, s))) ∧
      ∀ r : Reply, r.status ∉ Reply.emptyStatuses →
        r.content = r.body.toList ∧ (r.body.toList.head? ≠ some '\uFEFF' → r.shown = r.body) := by
  refine ⟨trimSlashes base, isStem_trimSlashes base, fun carry sent s => ⟨rfl, ?_, ?_⟩,
    fun r => Reply.as_written⟩
  · intro text
    rw [one_eq_ask]
    exact (ofAddress base model).ask_asksOnce carry sent s Nat.one_pos
  · intro texts nonempty
    rw [many, if_neg (by simpa using nonempty)]
    exact (ofAddress base model).ask_asksOnce carry sent s (List.length_pos_of_ne_nil nonempty)

/-- A reply with one embedding, and one that has the same body and the status of no content. -/
def answered : Reply := { status := 200, body := "\x7b\"embeddings\": [[1]]\x7d" }

def silent : Reply := { answered with status := 204 }

/-- An error that starts with a byte order mark, and a reply that announces another one. -/
def marked : Reply := { status := 500, body := "\uFEFFoops" }

def early : Reply := { status := 100, body := "wait" }

theorem each_call_is_one_post_sample :
    ["q"] ≠ [] ∧ answered.status ∉ Reply.emptyStatuses ∧ answered.content = answered.body.toList ∧
    ∃ stem, IsStem "http://h//" stem ∧ ∃ post : Post, post.url = stem ++ "/api/embed" ∧
      EmbedRequest.read? post.body.toList = some { model := "m", input := .many ["q"] } ∧
      (ofAddress "http://h//" "m").many (Carrier.recording fun _ s => (.ok answered, s)) ["q"]
        ([], ()) = (.ok [[.ofInt 1]], [post], ()) := by
  obtain ⟨stem, isStem, calls, written⟩ := each_call_is_one_post "http://h//" "m"
  have nonempty : ["q"] ≠ [] := by decide
  have ordinary : answered.status ∉ Reply.emptyStatuses := by decide
  obtain ⟨-, -, batch⟩ := calls (fun _ s => (.ok answered, s)) [] ()
  obtain ⟨post, place, decoded, sent, settled, -⟩ := batch ["q"] nonempty
  have response : EmbedResponse.read? answered.content =
      some { embeddings := [[.ofInt 1]] } := by decide +kernel
  have given := ((settled answered rfl).accepted [[.ofInt 1]]).2
    ⟨by decide, rfl, _, response, rfl⟩
  exact ⟨nonempty, ordinary, (written answered ordinary).1, stem, isStem, post, place, decoded,
    Prod.ext given sent⟩

/-- **Replies are not always taken as they are written:** one with a body that can be read has no
content because of its status, an error is shown without its first character, and one that
announces another reply is none. -/
theorem replies_are_not_as_written :
    let call (r : Reply) := ((ofAddress "http://h" "m").one (fun _ s => (.ok r, s)) "q" ()).1
    (silent.isSuccess = true ∧
      (∃ response, EmbedResponse.read? silent.body.toList = some response ∧
        response.embeddings.length = 1) ∧ ∀ v, call silent ≠ .ok v) ∧
    (marked.isSuccess = false ∧ call marked ≠ .error (.api marked.body)) ∧
    early.isSuccess = false ∧ call early ≠ .error (.api early.body) := by
  intro call
  refine ⟨⟨by decide, ⟨{ embeddings := [[.ofInt 1]] }, by decide +kernel, rfl⟩, ?_⟩, ?_⟩
  · have refused : call silent = .error (.request "error decoding response body") := by
      decide +kernel
    rw [refused]
    exact nofun
  · decide +kernel

end Client

end Ollama

end Retrieval
