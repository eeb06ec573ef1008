import AssetCache.Geometry
import AssetCache.ByteReader

/-! # Object placements

An object file gives the placements of a region in groups of one object each. Ids and, within a group,
offsets only grow, so each is written as its distance from the one before, ids starting one before 0 and
offsets at 0; a zero ends a group or the file. An offset packs a plane and a place in the region, twelve
bits below the plane. -/

namespace AssetCache

/-- An object that stands in the world. -/
structure Placement where
  objectId : UInt16
  position : Vec3
  kind : UInt8
  orientation : UInt8
deriving DecidableEq, Repr

namespace Placement
open ByteReader

/-- The greatest offset. -/
def offsetLimit : Nat := 2147483647

/-- The place that an offset means in the region with the given coordinates. -/
def place (x y : UInt8) (offset : Nat) : Vec3 where
  x := regionSize * x.toNat + ((offset / 64 % 64 : Nat) : Int)
  y := regionSize * y.toNat + ((offset % 64 : Nat) : Int)
  z := ((offset / 4096 : Nat) : Int)

/-- The placement with the given offset and attributes. -/
def ofOffset (x y : UInt8) (objectId : UInt16) (offset : Nat) (attributes : UInt8) : Placement where
  objectId
  position := place x y offset
  kind := attributes >>> 2
  orientation := attributes &&& 3

/-- How far a group has been read: the last offset, and the placements so far in reverse. -/
structure Group where
  offset : Nat
  acc : List Placement

/-- One more placement of a group. -/
def moreOfGroup (x y : UInt8) (objectId : UInt16) (g : Group) :
    ByteReader (Group ⊕ List Placement) := do
  let step ← smart
  if step = 0 then pure (.inr g.acc)
  else
    let offset := g.offset + (step.toNat - 1)
    if offsetLimit < offset then Reader.fail (.corrupted (.offsetRange objectId x y))
    else
      let attributes ← byte
      pure (.inl { offset, acc := ofOffset x y objectId offset attributes :: g.acc })

theorem progress_moreOfGroup (x y : UInt8) (objectId : UInt16) :
    Reader.Progress (moreOfGroup x y objectId) :=
  fun _ _ _ _ h => (strict_smart.bind _) _ _ _ h

/-- The placements of a group, onto the reversed `acc`. -/
def readGroup (x y : UInt8) (objectId : UInt16) (acc : List Placement) : ByteReader (List Placement) :=
  Reader.loop (moreOfGroup x y objectId) (progress_moreOfGroup x y objectId) { offset := 0, acc }

/-- How far a file has been read: one more than the last id, and the placements so far in reverse. -/
structure Groups where
  bound : Nat
  acc : List Placement

/-- One more group. -/
def moreGroups (x y : UInt8) (g : Groups) : ByteReader (Groups ⊕ List Placement) := do
  let step ← smart
  if step = 0 then pure (.inr g.acc.reverse)
  else
    let bound := g.bound + step.toNat
    if 65536 < bound then Reader.fail (.corrupted (.objectIdRange (bound - 1) x y))
    else
      let acc ← readGroup x y (UInt16.ofNat (bound - 1)) g.acc
      pure (.inl { bound, acc })

theorem progress_moreGroups (x y : UInt8) : Reader.Progress (moreGroups x y) :=
  fun _ _ _ _ h => (strict_smart.bind _) _ _ _ h

/-- The placements of an object file. -/
def readAll (x y : UInt8) : ByteReader (List Placement) :=
  Reader.loop (moreGroups x y) (progress_moreGroups x y) { bound := 0, acc := [] }

/-- The placements of the object file of the region with the given coordinates. -/
def decodeAll (file : Bytes) (x y : UInt8) : Except LoadError (List Placement) := do
  let (placements, _) ← (readAll x y).run file
  pure placements

end Placement

end AssetCache
