import AssetCache.Archive

/-! # Packing archives

A file is packed as it is, or as a stream that unpacks to it. The table of a payload says of each file
how large it is and how much of the payload it takes; the container says the same of the payload. -/

namespace AssetCache

/-- A file to be packed. -/
structure PackedFile where
  hash : UInt32
  content : Bytes
  /-- What is put into the payload for it. -/
  stored : Bytes
deriving DecidableEq, Repr

namespace PackedFile

/-- A file packed as it is. -/
def plain (hash : UInt32) (content : Bytes) : PackedFile := ⟨hash, content, content⟩

/-- Whether what is stored stands for the content: it is the content, or it unpacks to it and differs
from it in length. -/
def Faithful (f : PackedFile) : Prop :=
  f.stored = f.content ∨
    (f.stored.length ≠ f.content.length ∧ Bzip2.decompress f.stored f.content.length = .ok f.content)

/-- Whether both sizes fit the table. -/
def Fits (f : PackedFile) : Prop := f.content.length < 0x1000000 ∧ f.stored.length < 0x1000000

instance (f : PackedFile) : Decidable f.Fits := inferInstanceAs (Decidable (_ ∧ _))

/-- The line of a file in the table. -/
def encodeLine (f : PackedFile) : Bytes :=
  Bytes.ofU32 f.hash ++ Bytes.ofU24 f.content.length ++ Bytes.ofU24 f.stored.length

end PackedFile

namespace Archive

/-- The payload that holds files: their number, their lines, and what is stored of each. -/
def encodePayload (files : List PackedFile) : Bytes :=
  Bytes.ofU16 (UInt16.ofNat files.length) ++ files.flatMap PackedFile.encodeLine ++
    files.flatMap PackedFile.stored

/-- A container with two sizes. -/
def encodeContainer (compressed decompressed : Nat) (stored : Bytes) : Bytes :=
  Bytes.ofU24 compressed ++ Bytes.ofU24 decompressed ++ stored

/-- The container of a payload that is stored as it is. -/
def encodePlain (payload : Bytes) : Bytes := encodeContainer payload.length payload.length payload

/-- The lines of a table of files whose data starts at `offset`. -/
def entriesFrom (offset : Nat) : List PackedFile → List Entry
  | [] => []
  | f :: fs =>
    { hash := f.hash, offset, decompressedSize := f.content.length, compressedSize := f.stored.length } ::
      entriesFrom (offset + f.stored.length) fs

/-- That a container holds the files: each stored on its own in a payload that stands in the container,
or all of them as they are in a payload that the container's stream unpacks to. Sizes that differ tell the
second form from the first. -/
inductive Packs (files : List PackedFile) : Bytes → Prop
  | each (size : Nat) : size < 0x1000000 → (∀ f ∈ files, f.Faithful) →
      Packs files (encodeContainer size size (encodePayload files))
  | whole (size : Nat) (stream : Bytes) : size < 0x1000000 → (encodePayload files).length < 0x1000000 →
      size ≠ (encodePayload files).length → (∀ f ∈ files, f.stored = f.content) →
      Bzip2.decompress stream (encodePayload files).length = .ok (encodePayload files) →
      Packs files (encodeContainer size (encodePayload files).length stream)

end Archive

end AssetCache
