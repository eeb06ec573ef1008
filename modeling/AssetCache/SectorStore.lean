import AssetCache.ByteReader

/-! # The sector store

A store is one data file, cut into sectors, and one index file for each category. An index entry gives
the size of an archive and its first sector; each sector names the archive, the part and the category
it belongs to and the sector that follows it. Every sector of a chain is checked against all of that
before its bytes are taken. -/

namespace AssetCache

/-- A data file and the index file of each category. -/
structure SectorStore where
  data : Array UInt8
  indices : List (Array UInt8)

/-- An index entry. -/
structure IndexEntry where
  size : Nat
  sector : Nat
deriving DecidableEq, Repr

/-- What the head of a sector says. -/
structure SectorHeader where
  archive : UInt16
  part : UInt16
  next : Nat
  store : UInt8
deriving DecidableEq, Repr

/-- The `count` bytes of a file from `start` on, if it has them all. -/
def slice? (file : Array UInt8) (start count : Nat) : Option Bytes :=
  if start + count ≤ file.size then some (file.extract start (start + count)).toList else none

namespace SectorStore
open ByteReader

/-- The bytes of a sector, its head included. -/
def sectorSize : Nat := 520

/-- The bytes of the head of a sector. -/
def headerSize : Nat := 8

/-- The most content that a sector holds. -/
def chunkSize : Nat := 512

/-- The bytes of an index entry. -/
def entrySize : Nat := 6

/-- The largest archive that an index entry may announce. -/
def archiveLimit : Nat := 500000

variable (s : SectorStore)

/-- The number of whole sectors of the data file. -/
def wholeSectors : Nat := s.data.size / sectorSize

/-- The number of whole sectors, or the greatest word if there are more. -/
def sectorCount : UInt32 := UInt32.ofNat (min s.wholeSectors 0xFFFFFFFF)

def categoryCount : Nat := s.indices.length

/-- The index file of a category. -/
def index (category : UInt8) : Except LoadError (Array UInt8) :=
  match s.indices[category.toNat]? with
  | some file => .ok file
  | none => .error (.categoryNotFound category)

/-- The number of whole entries of the index of a category, cut down to a word. -/
def archiveCount (category : UInt8) : Except LoadError UInt32 := do
  pure (UInt32.ofNat ((← s.index category).size / entrySize))

/-- Reads an index entry. -/
def readEntry : ByteReader IndexEntry := do
  let size ← u24
  let sector ← u24
  pure { size, sector }

/-- The index entry of an archive. -/
def entry (category : UInt8) (archive : UInt32) : Except LoadError IndexEntry := do
  let file ← s.index category
  let offset := archive.toNat * entrySize
  let corrupt fault : LoadError := .corruptIndex category archive fault
  match slice? file offset entrySize with
  | none => .error (corrupt (.beyondFile offset file.size))
  | some bytes =>
    let (e, _) ← readEntry.run bytes
    if archiveLimit < e.size then .error (corrupt (.archiveTooLarge e.size))
    else if e.sector = 0 ∨ s.sectorCount.toNat < e.sector then
      .error (corrupt (.startOutside e.sector s.sectorCount.toNat))
    else pure e

/-- Reads the head of a sector. -/
def readHeader : ByteReader SectorHeader := do
  let archive ← u16
  let part ← u16
  let next ← u24
  let store ← byte
  pure { archive, part, next, store }

/-- The number under which the sectors of a category name it. -/
def storeNumber (category : UInt8) : Nat := category.toNat + 1

/-- What contradicts the place of a sector in a chain. -/
def headerFault? (h : SectorHeader) (category : UInt8) (archive : UInt32) (part : Nat) :
    Option ChainFault :=
  if h.archive.toNat ≠ archive.toNat then some (.otherArchive archive.toNat h.archive.toNat)
  else if h.part.toNat ≠ part then some (.otherPart part h.part.toNat)
  else if h.store.toNat ≠ storeNumber category then
    some (.otherStore (storeNumber category) h.store.toNat)
  else none

/-- What a sector holds of an archive of `size` bytes of which `left` are still wanted, and the sector
that comes after it. -/
def readSector (category : UInt8) (archive : UInt32) (size left part sector : Nat) :
    Except LoadError (Bytes × Nat) :=
  let corrupt fault : LoadError := .corruptChain category archive sector fault
  if sector = 0 ∨ s.sectorCount.toNat < sector then .error (corrupt (.ended (size - left) size))
  else
    match slice? s.data (sector * sectorSize) (headerSize + min left chunkSize) with
    | none => .error (corrupt .beyondData)
    | some bytes => do
      let (header, chunk) ← readHeader.run bytes
      match headerFault? header category archive part with
      | some fault => .error (corrupt fault)
      | none => pure (chunk, header.next)

/-- The last `left` of the `size` bytes of an archive, from the given part and sector on. -/
def follow (category : UInt8) (archive : UInt32) (size left part sector : Nat) :
    Except LoadError Bytes :=
  if _h : left = 0 then .ok []
  else do
    let (chunk, next) ← s.readSector category archive size left part sector
    let rest ← follow category archive size (left - min left chunkSize) (part + 1) next
    pure (chunk ++ rest)
termination_by left
decreasing_by simp only [chunkSize]; omega

/-- The bytes of an archive. -/
def read (category : UInt8) (archive : UInt32) : Except LoadError Bytes := do
  let e ← s.entry category archive
  s.follow category archive e.size e.size 0 e.sector

/-- What a store says of itself. -/
def describe : String :=
  s!"SectorStore \x7b sector_count: {s.sectorCount}, category_count: {s.categoryCount} \x7d"

end SectorStore

end AssetCache
