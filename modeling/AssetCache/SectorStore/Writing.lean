import AssetCache.SectorStore

/-! # Writing a sector store

Archives are written one after the other, each in sectors of its own behind all that were written
before. Writing an archive again leaves its old sectors behind, where nothing leads to them. -/

namespace AssetCache.SectorStore

/-- A store without archives. Its only sector is the one that no archive uses. -/
def empty (categoryCount : Nat) : SectorStore where
  data := Array.replicate sectorSize 0
  indices := List.replicate categoryCount #[]

/-- The bytes of a sector: its head, a piece of an archive, and zeros where the piece is too short. -/
def encodeSector (h : SectorHeader) (chunk : Bytes) : Bytes :=
  Bytes.ofU16 h.archive ++ Bytes.ofU16 h.part ++ Bytes.ofU24 h.next ++ h.store ::
    chunk ++ List.replicate (chunkSize - chunk.length) 0

/-- The sectors of the rest of an archive, from the given part on, that start at the sector `number`. -/
def encodeChain (category : UInt8) (archive : UInt32) (part number : Nat) (payload : Bytes) : Bytes :=
  if _h : payload = [] then []
  else
    let rest := payload.drop chunkSize
    let header : SectorHeader :=
      { archive := archive.toUInt16
        part := UInt16.ofNat part
        next := if rest = [] then 0 else number + 1
        store := category + 1 }
    encodeSector header (payload.take chunkSize) ++ encodeChain category archive (part + 1) (number + 1) rest
termination_by payload.length
decreasing_by
  have := List.length_pos_iff.2 _h
  simp only [List.length_drop, chunkSize]
  omega

/-- The bytes of an index entry. -/
def encodeEntry (e : IndexEntry) : Bytes := Bytes.ofU24 e.size ++ Bytes.ofU24 e.sector

/-- An index file with the entry of an archive. Where it was too short for that, zeros come before. -/
def setEntry (file : Bytes) (archive : UInt32) (e : IndexEntry) : Bytes :=
  let start := archive.toNat * entrySize
  let long := file ++ List.replicate (start - file.length) 0
  long.take start ++ encodeEntry e ++ long.drop (start + entrySize)

/-- The store with one more archive. -/
def put (s : SectorStore) (category : UInt8) (archive : UInt32) (payload : Bytes) : SectorStore where
  data := s.data ++ (encodeChain category archive 0 s.wholeSectors payload).toArray
  indices := s.indices.modify category.toNat fun file =>
    (setEntry file.toList archive { size := payload.length, sector := s.wholeSectors }).toArray

/-- An archive to be written. -/
structure Write where
  category : UInt8
  archive : UInt32
  payload : Bytes
deriving DecidableEq, Repr

/-- Whether a store with the given number of categories has room for an archive. -/
structure Write.Fits (categoryCount : Nat) (w : Write) : Prop where
  category : w.category.toNat < categoryCount
  archive : w.archive.toNat < 0x10000
  payload : w.payload.length ≤ archiveLimit

/-- The store after one write after the other. -/
def writeAll (s : SectorStore) (ws : List Write) : SectorStore :=
  ws.foldl (fun s w => s.put w.category w.archive w.payload) s

/-- What was written last for an archive. -/
def lastWrite? (ws : List Write) (category : UInt8) (archive : UInt32) : Option Bytes :=
  (ws.reverse.find? fun w => w.category = category ∧ w.archive = archive).map (·.payload)

end AssetCache.SectorStore
