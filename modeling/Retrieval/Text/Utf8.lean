/-
# Retrieval.Text.Utf8 -- text as bytes

A file holds bytes; a text is a list of characters.  `Bytes.ofText` writes each
character in its one to four bytes, `Bytes.text?` reads a whole file back and
refuses it when any part is no character, and `Bytes.lossyText` never refuses:
each longest run of bytes that begins a character without completing it, and
each byte that begins none, is read as the replacement character.
-/

namespace Retrieval

set_option autoImplicit false

/-- The content of a file. -/
abbrev Bytes := List UInt8

namespace Bytes

def ofText (text : List Char) : Bytes := text.flatMap String.utf8EncodeChar

/-- The text of bytes that are a text throughout. -/
def text? (bytes : Bytes) : Option (List Char) :=
  bytes.toByteArray.utf8Decode?.map Array.toList

@[simp] theorem ofText_nil : ofText [] = [] := rfl

/-- Texts put together have their bytes put together. -/
@[simp] theorem ofText_append (s t : List Char) : ofText (s ++ t) = ofText s ++ ofText t :=
  List.flatMap_append

/-- A text survives being written and read. -/
@[simp] theorem text?_ofText (text : List Char) : text? (ofText text) = some text := by
  have h : (ofText text).toByteArray = text.utf8Encode := rfl
  simp [text?, h]

/-! ## Reading without refusing -/

/-- What stands for bytes that are no character. -/
def replacement : Char := '\uFFFD'

/-- A character begun: the bits read so far, the bytes still owed, and the range
of the next one. -/
structure Begun where
  value : Nat
  owed : Nat
  low : UInt8
  high : UInt8

/-- What a byte is at the start of a character. -/
inductive Lead where
  | whole (c : Char)
  | begun (b : Begun)
  | stray

/-- Classify a byte at the start of a character.  The narrower ranges after
`E0`, `ED`, `F0` and `F4` keep out overlong forms, surrogates and values past
the last character. -/
def lead (b : UInt8) : Lead :=
  let v := b.toNat
  if v < 0x80 then .whole (Char.ofNat v)
  else if v < 0xC2 then .stray
  else if v < 0xE0 then .begun ⟨v % 32, 1, 0x80, 0xBF⟩
  else if v = 0xE0 then .begun ⟨v % 16, 2, 0xA0, 0xBF⟩
  else if v = 0xED then .begun ⟨v % 16, 2, 0x80, 0x9F⟩
  else if v < 0xF0 then .begun ⟨v % 16, 2, 0x80, 0xBF⟩
  else if v = 0xF0 then .begun ⟨v % 8, 3, 0x90, 0xBF⟩
  else if v < 0xF4 then .begun ⟨v % 8, 3, 0x80, 0xBF⟩
  else if v = 0xF4 then .begun ⟨v % 8, 3, 0x80, 0x8F⟩
  else .stray

/-- The characters completed by one byte, and what is begun after it. -/
def feed (state : Option Begun) (b : UInt8) : List Char × Option Begun :=
  let fresh : List Char × Option Begun :=
    match lead b with
    | .whole c => ([c], none)
    | .begun p => ([], some p)
    | .stray => ([replacement], none)
  match state with
  | none => fresh
  | some p =>
      if p.low ≤ b ∧ b ≤ p.high then
        let value := p.value * 64 + b.toNat % 64
        if p.owed ≤ 1 then ([Char.ofNat value], none)
        else ([], some ⟨value, p.owed - 1, 0x80, 0xBF⟩)
      else (replacement :: fresh.1, fresh.2)

/-- The text of bytes read after a character has perhaps begun. -/
def lossyFrom : Option Begun → Bytes → List Char
  | none, [] => []
  | some _, [] => [replacement]
  | state, b :: rest =>
      let (done, next) := feed state b
      done ++ lossyFrom next rest

/-- The text of any bytes. -/
def lossyText (bytes : Bytes) : List Char := lossyFrom none bytes

end Bytes

end Retrieval
