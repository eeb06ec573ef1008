import AssetCache.Geometry
import AssetCache.ByteReader

/-! # Regions

The region table lists each region with the files that hold its terrain and its objects. An entry has
seven bytes, so only a table whose length is a multiple of seven is whole, and then every entry can be
read. -/

namespace AssetCache

/-- A line of the region table. -/
structure Region where
  x : UInt8
  y : UInt8
  terrainId : UInt16
  objectsId : UInt16
  /-- Whether it is wanted ahead of time. -/
  preload : Bool
deriving DecidableEq, Repr

namespace Region
open ByteReader

/-- How many bytes an entry has. -/
def entrySize : Nat := 7

/-- Both coordinates in one number. -/
def id (r : Region) : Nat := 256 * r.x.toNat + r.y.toNat

/-- The tile in the south-west corner. -/
def origin (r : Region) : Vec2 := ⟨regionSize * r.x.toNat, regionSize * r.y.toNat⟩

/-- Whether a place lies in the region, on any plane. -/
def contains (r : Region) (p : Vec3) : Bool := p.regionX = r.x.toNat && p.regionY = r.y.toNat

/-- Reads an entry. -/
def read : ByteReader Region := do
  let x ← byte
  let y ← byte
  let terrainId ← u16
  let objectsId ← u16
  let preload ← byte
  pure { x, y, terrainId, objectsId, preload := preload = 1 }

/-- Reads a region table. -/
def decodeAll (table : Bytes) : Except LoadError (List Region) :=
  if table.length % entrySize ≠ 0 then
    .error (.corrupted (.regionTableLength table.length entrySize))
  else do
    let (regions, _) ← (read.replicate (table.length / entrySize)).run table
    pure regions

/-- The bytes of an entry. -/
def encode (r : Region) : Bytes :=
  Bytes.ofU16 (UInt16.ofNat r.id) ++ Bytes.ofU16 r.terrainId ++ Bytes.ofU16 r.objectsId ++
    [r.preload.toUInt8]

/-- The bytes of a region table. -/
def encodeAll (regions : List Region) : Bytes := regions.flatMap encode

end Region

end AssetCache
