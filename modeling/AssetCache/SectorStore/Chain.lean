import AssetCache.SectorStore

/-! # Sector chains

What it means for sectors to hold an archive, said of all of them at once: there are as many as the size
asks for, each has its bytes in the data file, and each names its archive, its part, its category and
the sector after it. What the last one names after it does not matter. `visited` says which sectors are
looked at in any case. -/

namespace AssetCache.SectorStore
variable (s : SectorStore)

/-- The head of a sector. -/
def header? (number : Nat) : Option SectorHeader := do
  match readHeader.run (← slice? s.data (number * sectorSize) headerSize) with
  | .ok (h, _) => some h
  | .error _ => none

/-- The content of the first `count` bytes after the head of a sector. -/
def chunk (number count : Nat) : Bytes :=
  let start := number * sectorSize + headerSize
  (s.data.extract start (start + count)).toList

/-- How many sectors an archive takes. -/
def chainLength (size : Nat) : Nat := (size + (chunkSize - 1)) / chunkSize

/-- How much of an archive the sector of a part holds. -/
def chunkLength (size part : Nat) : Nat := min chunkSize (size - part * chunkSize)

/-- That the given sectors hold the archive that an index entry announces. -/
structure IsChain (category : UInt8) (archive : UInt32) (e : IndexEntry) (chain : List Nat) : Prop where
  length_eq : chain.length = chainLength e.size
  head_eq : ∀ n ∈ chain.head?, n = e.sector
  mem_store : ∀ n ∈ chain, 1 ≤ n ∧ n ≤ s.sectorCount.toNat
  present : ∀ part n, chain[part]? = some n →
    n * sectorSize + headerSize + chunkLength e.size part ≤ s.data.size
  header : ∀ part n, chain[part]? = some n → ∃ h ∈ s.header? n,
    h.archive.toNat = archive.toNat ∧ h.part.toNat = part ∧ h.store.toNat = storeNumber category ∧
      ∀ next, chain[part + 1]? = some next → h.next = next

/-- What the sectors of a chain hold, one after the other. -/
def chainContent (size : Nat) (chain : List Nat) : Bytes :=
  chain.zipIdx.flatMap fun (number, part) => s.chunk number (chunkLength size part)

/-- The sectors that are looked at for the last `left` of the `size` bytes of an archive, in that order;
the walk stops at a sector that fails. -/
def visited (category : UInt8) (archive : UInt32) (size left part sector : Nat) : List Nat :=
  if _h : left = 0 then []
  else
    sector ::
      match s.readSector category archive size left part sector with
      | .error _ => []
      | .ok (_, next) => visited category archive size (left - min left chunkSize) (part + 1) next
termination_by left
decreasing_by simp only [chunkSize]; omega

/-- The sectors that are looked at for an archive. -/
def sectorsOf (category : UInt8) (archive : UInt32) : List Nat :=
  match s.entry category archive with
  | .ok e => s.visited category archive e.size e.size 0 e.sector
  | .error _ => []

end AssetCache.SectorStore
