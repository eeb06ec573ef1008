import AssetCache.Bzip2.Stream

/-! # Archive containers

An archive is a small file system: a table of files by name hash, then their data back to back. It is
compressed as a whole, or file by file, or not at all; the sizes that are given twice tell which. -/

namespace AssetCache

/-- The hash of one more byte of a name, whose case does not count. -/
def hashByte (hash : UInt32) (b : UInt8) : UInt32 :=
  let upper := if 0x61 ≤ b ∧ b ≤ 0x7A then b - 0x20 else b
  hash * 61 + upper.toUInt32 - 32

/-- The hash of the bytes of a name. -/
def hashBytes (name : Bytes) : UInt32 := name.foldl hashByte 0

/-- The hash under which a table lists a name. -/
def nameHash (name : String) : UInt32 := hashBytes name.toUTF8.toList

/-- A line of the file table. -/
structure Entry where
  hash : UInt32
  /-- Where the file's data starts in the payload. -/
  offset : Nat
  decompressedSize : Nat
  compressedSize : Nat
deriving DecidableEq, Repr

/-- An archive that has been read. -/
structure Archive where
  entries : List Entry
  /-- The file table and the data, once unpacked. -/
  payload : Bytes
  compressedWhole : Bool
  /-- The check of the archive as it was stored. -/
  crc : UInt32
deriving DecidableEq, Repr

/-- The bytes of a line of the file table. -/
def Entry.width : Nat := 10

namespace Archive
open ByteReader

/-- How many bytes of the payload a file takes up. -/
def span (compressedWhole : Bool) (e : Entry) : Nat :=
  if compressedWhole then e.decompressedSize else e.compressedSize

/-- Reads `count` lines of the table onto the reversed `acc`. The data of the next file starts at
`offset`. -/
def readEntries (compressedWhole : Bool) (payloadLength : Nat) :
    (count offset : Nat) → (acc : List Entry) → ByteReader (List Entry)
  | 0, _, acc => pure acc.reverse
  | count + 1, offset, acc => do
    let hash ← u32
    let decompressedSize ← u24
    let compressedSize ← u24
    let e : Entry := { hash, offset, decompressedSize, compressedSize }
    let stop := offset + span compressedWhole e
    if payloadLength < stop then
      Reader.fail (.corrupted (.fileBeyondPayload acc.length hash offset stop payloadLength))
    else readEntries compressedWhole payloadLength count (offset + compressedSize) (e :: acc)

/-- Reads the file table at the head of a payload. -/
def readTable (compressedWhole : Bool) (payloadLength : Nat) : ByteReader (List Entry) := do
  let count ← u16
  readEntries compressedWhole payloadLength count.toNat (2 + count.toNat * Entry.width) []

/-- Reads an archive. -/
def parse (raw : Bytes) : Except LoadError Archive := do
  let ((compressed, decompressed), stored) ← (do pure (← u24, ← u24) : ByteReader (Nat × Nat)).run raw
  let compressedWhole : Bool := compressed ≠ decompressed
  let payload ← if compressedWhole then Bzip2.decompress stored decompressed else pure stored
  let (entries, _) ← (readTable compressedWhole payload.length).run payload
  pure { entries, payload, compressedWhole, crc := Checksum.crc32 raw }

variable (a : Archive)

/-- The first file with the given hash. -/
def entryByHash? (hash : UInt32) : Option Entry := a.entries.find? (·.hash = hash)

/-- The first file with the hash of the given name. -/
def entry? (name : String) : Option Entry := a.entryByHash? (nameHash name)

def contains (name : String) : Bool := (a.entry? name).isSome

/-- The content of a file. -/
def readEntry (e : Entry) : Except LoadError Bytes :=
  let data := a.payload.drop e.offset
  if !a.compressedWhole && e.compressedSize ≠ e.decompressedSize then
    Bzip2.decompress (data.take e.compressedSize) e.decompressedSize
  else .ok (data.take e.decompressedSize)

/-- The content of the first file with the given hash, asked for by `key`. -/
def lookup (key : FileKey) (hash : UInt32) : Except LoadError Bytes :=
  match a.entryByHash? hash with
  | some e => a.readEntry e
  | none => .error (.subFileNotFound key)

/-- The content of a file, by name. -/
def file (name : String) : Except LoadError Bytes := a.lookup (.name name) (nameHash name)

/-- The content of a file, by hash. -/
def fileByHash (hash : UInt32) : Except LoadError Bytes := a.lookup (.hash hash) hash

end Archive

end AssetCache
