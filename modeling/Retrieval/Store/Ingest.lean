/-
# Retrieval.Store.Ingest -- adding documents

Texts are embedded in one batch.  Then each text in turn has its embedding
checked, gets the next number, and enters the table and the backend under it
(`Store.commit`); the first embedding that is not valid ends this, and what was
entered before stays.  Last, a backend on disk is flushed once for the batch.
-/
import Retrieval.Store.Basic

namespace Retrieval

set_option autoImplicit false

namespace Store

variable {σ : Type}

/-- Enter documents with their embeddings, up to the first that is not valid. -/
def commit (s : Store) : List (Document × Embedding) → Except StoreError (List DocumentId) × Store
  | [] => (.ok [], s)
  | (d, v) :: rest =>
      match v.fault? s.dimension with
      | some f => (.error (.ofFault f), s)
      | none =>
          let id := s.documents.nextId
          let s := { s with documents := s.documents.insert d }
          match s.backend.insert id v with
          | .error f => (.error (.ofFault f), s)
          | .ok backend =>
              let (ids, s) := commit { s with backend } rest
              (ids.map (id :: ·), s)

/-- Bring what was entered to disk. -/
def persist (s : Store) (device : Device) (disk : Disk) :
    Disk × Store × Option StoreError :=
  let (disk, backend, failure) := s.backend.flush device disk
  (disk, { s with backend }, failure.map StoreError.ofIndexError)

/-- Embed and enter documents; the answer lists their numbers. -/
def addDocuments (e : Embedder σ) (device : Device) (documents : List Document)
    (s : Store) (w : World σ) : Except StoreError (List DocumentId) × Store × World σ :=
  if documents.isEmpty then (.ok [], s, w)
  else
    match e.batch (documents.map Document.content) w.service with
    | (.error e, service) => (.error (.embedding e), s, { w with service })
    | (.ok vectors, service) =>
        match s.commit (documents.zip vectors) with
        | (.error e, s) => (.error e, s, { w with service })
        | (.ok ids, s) =>
            match s.persist device w.disk with
            | (disk, s, some e) => (.error e, s, { service, disk })
            | (disk, s, none) => (.ok ids, s, { service, disk })

/-- Texts with metadata as documents; without metadata each text has none. -/
def toDocuments (texts : List String) (metadatas : Option (List Metadata)) :
    Except StoreError (List Document) :=
  match metadatas with
  | none => .ok (texts.map fun content => { content })
  | some metadatas =>
      if metadatas.length = texts.length then
        .ok (List.zipWith (fun content metadata => { content, metadata }) texts metadatas)
      else
        .error (.configMismatch
          s!"{metadatas.length} metadata entries for {texts.length} texts")

def addTexts (e : Embedder σ) (device : Device) (texts : List String)
    (metadatas : Option (List Metadata)) (s : Store) (w : World σ) :
    Except StoreError (List DocumentId) × Store × World σ :=
  match toDocuments texts metadatas with
  | .error e => (.error e, s, w)
  | .ok documents => addDocuments e device documents s w

def ofTexts (e : Embedder σ) (device : Device) (texts : List String)
    (metadatas : Option (List Metadata)) (o : Options) (w : World σ) :
    Except StoreError Store × World σ :=
  match create e o w with
  | (.error e, w) => (.error e, w)
  | (.ok s, w) =>
      match addTexts e device texts metadatas s w with
      | (.error e, _, w) => (.error e, w)
      | (.ok _, s, w) => (.ok s, w)

def ofDocuments (e : Embedder σ) (device : Device) (documents : List Document)
    (o : Options) (w : World σ) : Except StoreError Store × World σ :=
  ofTexts e device (documents.map Document.content)
    (some (documents.map Document.metadata)) o w

end Store

end Retrieval
