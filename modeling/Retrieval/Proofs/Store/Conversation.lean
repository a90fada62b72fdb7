/-
# Retrieval.Proofs.Store.Conversation -- what is asked of a store and what it answers

A store is asked to enter documents, to search, and for the document of a number
(`Store.Call`).  It answers, and its answer stands beside what it tells of itself then
(`Store.Exchange`).  `Store.converse` is any number of calls in a row, the failed ones
among them; what is proved of its exchanges is proved of everything that a caller can see.

The numbers of documents are told as decimal strings.
-/
import Retrieval.Proofs.Store.Agreement

namespace Retrieval

set_option autoImplicit false

/-- The number of a document is told in decimal. -/
theorem DocumentId.text_ofNat {n : Nat} (small : n < UInt64.size) :
    DocumentId.text (UInt64.ofNat n) = n.repr := by
  rw [text, UInt64.toNat_ofNat_of_lt' small, digitsOf, Nat.repr_eq_ofList_toDigits]

/-- A number that is told can be told from any other. -/
theorem DocumentId.text_ofNat_eq_repr_iff {m n : Nat} (small : n < UInt64.size) :
    DocumentId.text (UInt64.ofNat n) = m.repr ↔ n = m := by
  rw [text_ofNat small]
  constructor
  · intro same
    rw [Nat.repr_eq_ofList_toDigits, Nat.repr_eq_ofList_toDigits, String.ofList_inj] at same
    rw [← Nat.ofDigitChars_ten_toDigits (n := n), same, Nat.ofDigitChars_ten_toDigits]
  · rintro rfl
    rfl

namespace Store

variable {σ : Type}

/-- What a store is asked. -/
inductive Call where
  | request (r : Request)
  | document (id : DocumentId)

namespace Call

/-- How many documents a call is given. -/
def count : Call → Nat
  | .request (.texts _ contents _) => contents.length
  | .request (.documents _ documents) => documents.length
  | .request (.search _ _ _) | .request (.searchBatch _ _) | .document _ => 0

/-- The document that a call is given in this place: a text with its metadata, if there is
metadata, or the document itself. -/
def given (call : Call) (i : Nat) : Option Document :=
  match call with
  | .request (.texts _ contents metadatas) =>
      contents[i]?.map fun content =>
        { content, metadata := (metadatas.bind fun metadatas => metadatas[i]?).getD [] }
  | .request (.documents _ documents) => documents[i]?
  | .request (.search _ _ _) | .request (.searchBatch _ _) | .document _ => none

end Call

/-- What a store answers. -/
inductive Answer where
  | entered (ids : Except StoreError (List String))
  | found (report : Except StoreError Report)
  | foundEach (answers : Except StoreError (List (List (Document × Binary32))))
  | document (document : Option Document)

/-- An answer, and how many documents and embeddings there are then. -/
structure Exchange where
  answer : Answer
  size : Nat
  backendSize : Nat

/-- One call: the answer, the store and its world. -/
def respond (e : Embedder σ) (s : Store) (w : World σ) : Call → Answer × Store × World σ
  | .request (.texts device contents metadatas) =>
      let (ids, after) := addTexts e device contents metadatas s w
      (.entered (ids.map (List.map DocumentId.text)), after)
  | .request (.documents device documents) =>
      let (ids, after) := addDocuments e device documents s w
      (.entered (ids.map (List.map DocumentId.text)), after)
  | .request (.search query k filter) =>
      let (report, service) := s.search e query k filter w.service
      (.found report, s, { w with service })
  | .request (.searchBatch queries k) =>
      let (answers, service) := s.searchBatch e queries k w.service
      (.foundEach answers, s, { w with service })
  | .document id => (.document (s.documents.get? id), s, w)

/-- Calls in a row. -/
def converse (e : Embedder σ) (s : Store) (w : World σ) :
    List Call → List Exchange × Store × World σ
  | [] => ([], s, w)
  | call :: rest =>
      let (answer, s', w') := s.respond e w call
      let (exchanges, last) := s'.converse e w' rest
      (⟨answer, s'.size, s'.backendSize⟩ :: exchanges, last)

theorem converse_cons (e : Embedder σ) (s : Store) (w : World σ) (call : Call)
    (rest : List Call) :
    s.converse e w (call :: rest) =
      (⟨(s.respond e w call).1, (s.respond e w call).2.1.size,
          (s.respond e w call).2.1.backendSize⟩ ::
        ((s.respond e w call).2.1.converse e (s.respond e w call).2.2 rest).1,
        ((s.respond e w call).2.1.converse e (s.respond e w call).2.2 rest).2) :=
  rfl

/-- Among calls in a row is this one: it finds the store as it is before, is answered, and
leaves the store after. -/
inductive Turn (e : Embedder σ) :
    Store → World σ → List Call → Store → Call → Answer → Store → Prop
  | first (s : Store) (w : World σ) (call : Call) (rest : List Call) :
      Turn e s w (call :: rest) s call (s.respond e w call).1 (s.respond e w call).2.1
  | later {s : Store} {w : World σ} {rest : List Call} {before after : Store} {call : Call}
      {answer : Answer} (earlier : Call)
      (turn : Turn e (s.respond e w earlier).2.1 (s.respond e w earlier).2.2 rest before call answer
        after) :
      Turn e s w (earlier :: rest) before call answer after

end Store

end Retrieval
