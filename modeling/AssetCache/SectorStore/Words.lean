import AssetCache.SectorStore

/-! # Reading a sector store in words

The same reading with every length, offset, size and number in a word of 32 or 64 bits. A number that its word does
not hold is an overflow, which is no failure of the store: there is no answer then. Only the two counts are cut down
to a word of 32 bits, and only the sectors are kept from being miscounted by that. -/

namespace AssetCache.SectorStore.Words

/-- A computation that may fail, and that may also overflow. -/
abbrev Checked := ExceptT LoadError Option

def overflow {α : Type} : Checked α := (none : Option (Except LoadError α))

/-- The word of 64 bits that is a number. -/
def wide (n : Nat) : Checked { w : UInt64 // w.toNat = n } :=
  if h : n < 0x10000000000000000 then pure ⟨UInt64.ofNat n, UInt64.toNat_ofNat_of_lt' h⟩ else overflow

/-- The word of 32 bits that is a number. -/
def word (n : Nat) : Checked { w : UInt32 // w.toNat = n } :=
  if h : n < 0x100000000 then pure ⟨UInt32.ofNat n, UInt32.toNat_ofNat_of_lt' h⟩ else overflow

/-- What is left of `a` without `b`. -/
def minus (a b : UInt64) : Checked { w : UInt64 // w.toNat + b.toNat = a.toNat } :=
  if h : b ≤ a then
    pure ⟨a - b, by rw [UInt64.toNat_sub_of_le _ _ h]; exact Nat.sub_add_cancel (UInt64.le_iff_toNat_le.1 h)⟩
  else overflow

/-- That a word of 64 bits holds the length of every file. -/
structure LengthsFit (s : SectorStore) : Prop where
  data : s.data.size < 0x10000000000000000
  index : ∀ file ∈ s.indices, file.size < 0x10000000000000000

/-- An index entry. -/
structure Entry where
  size : UInt32
  sector : UInt32
deriving DecidableEq, Repr

variable (s : SectorStore)

/-- The number of whole sectors, or the greatest word if there are more. -/
def sectorCount : Checked UInt32 := do
  let length ← wide s.data.size
  pure (min (length.val / UInt64.ofNat sectorSize) 0xFFFFFFFF).toUInt32

/-- The number of whole entries of the index of a category, cut down to a word. -/
def archiveCount (category : UInt8) : Checked UInt32 := do
  let file ← liftExcept (s.index category)
  let length ← wide file.size
  pure (length.val / UInt64.ofNat entrySize).toUInt32

/-- The index entry of an archive. -/
def entry (category : UInt8) (archive : UInt32) : Checked Entry := do
  let file ← liftExcept (s.index category)
  let corrupt fault : LoadError := .corruptIndex category archive fault
  let length ← wide file.size
  let offset ← wide (archive.toUInt64.toNat * entrySize)
  let stop ← wide (offset.val.toNat + entrySize)
  if length.val < stop.val then throw (corrupt (.beyondFile offset.val.toNat length.val.toNat))
  else
    let (e, _) ← liftExcept (readEntry.run (file.extract offset.val.toNat stop.val.toNat).toList)
    let size ← word e.size
    let sector ← word e.sector
    if archiveLimit < size.val.toNat then throw (corrupt (.archiveTooLarge size.val.toNat))
    else if sector.val = 0 ∨ s.sectorCount < sector.val then
      throw (corrupt (.startOutside sector.val.toNat s.sectorCount.toNat))
    else pure ⟨size.val, sector.val⟩

/-- What contradicts the place of a sector in a chain. -/
def headerFault? (h : SectorHeader) (archive part store : UInt32) : Option ChainFault :=
  if h.archive.toUInt32 ≠ archive then some (.otherArchive archive.toNat h.archive.toNat)
  else if h.part.toUInt32 ≠ part then some (.otherPart part.toNat h.part.toNat)
  else if h.store.toUInt32 ≠ store then some (.otherStore store.toNat h.store.toNat)
  else none

/-- What a sector holds of an archive of `size` bytes of which some are `collected`, and the sector after it. -/
def readSector (category : UInt8) (archive store : UInt32) (size collected chunk : UInt64) (part sector : UInt32) :
    Checked (Bytes × UInt32) := do
  let corrupt fault : LoadError := .corruptChain category archive sector.toNat fault
  if sector = 0 ∨ s.sectorCount < sector then throw (corrupt (.ended collected.toNat size.toNat))
  else
    let count ← wide (headerSize + chunk.toNat)
    let position ← wide (sector.toUInt64.toNat * sectorSize)
    match slice? s.data position.val.toNat count.val.toNat with
    | none => throw (corrupt .beyondData)
    | some bytes =>
      let (header, content) ← liftExcept (readHeader.run bytes)
      match headerFault? header archive part store with
      | some fault => throw (corrupt fault)
      | none =>
        let next ← word header.next
        pure (content, next.val)

/-- The rest of the `size` bytes of an archive once some are `collected`, from the given part and sector on. -/
def follow (category : UInt8) (archive store : UInt32) (size collected : UInt64) (part sector : UInt32) :
    Checked Bytes :=
  if _h : collected < size then do
    let left ← minus size collected
    let chunk ← wide (min left.val.toNat chunkSize)
    let (content, next) ← readSector s category archive store size collected chunk.val part sector
    let collected' ← wide (collected.toNat + chunk.val.toNat)
    let part' ← word (part.toNat + 1)
    let rest ← follow category archive store size collected'.val part'.val next
    pure (content ++ rest)
  else pure []
termination_by size.toNat - collected.toNat
decreasing_by
  have := UInt64.lt_iff_toNat_lt.1 _h
  have := left.property
  have := collected'.property
  have hchunk := chunk.property
  simp only [chunkSize] at hchunk
  omega

/-- The bytes of an archive. -/
def read (category : UInt8) (archive : UInt32) : Checked Bytes := do
  let e ← entry s category archive
  let store ← word (category.toUInt32.toNat + 1)
  follow s category archive store.val e.size.toUInt64 0 0 e.sector

end AssetCache.SectorStore.Words
