/-! # Positions

Pairs and triples of integers: sizes, offsets, rotations, and places in the world. The world is cut
into square regions of 64 by 64 tiles; a place lies in the region given by the floors of its
coordinates over 64, so negative coordinates lie in negative regions. -/

namespace AssetCache

/-- A pair of integers. -/
structure Vec2 where
  x : Int
  y : Int
deriving DecidableEq, Repr

/-- A triple of integers. -/
structure Vec3 where
  x : Int
  y : Int
  z : Int
deriving DecidableEq, Repr

/-- Tiles along one side of a region. -/
def regionSize : Nat := 64

namespace Vec3

def zero : Vec3 := ⟨0, 0, 0⟩

/-- The triple whose components are all `n`. -/
def splat (n : Int) : Vec3 := ⟨n, n, n⟩

/-- The pair of the first two components. -/
def flat (v : Vec3) : Vec2 := ⟨v.x, v.y⟩

instance : Add Vec3 := ⟨fun a b => ⟨a.x + b.x, a.y + b.y, a.z + b.z⟩⟩

/-- The column of regions that holds `v`. -/
def regionX (v : Vec3) : Int := v.x / regionSize

/-- The row of regions that holds `v`. -/
def regionY (v : Vec3) : Int := v.y / regionSize

/-- The order in which a region lists its tiles: by plane, then from west to east, then from south to
north. -/
def order : Vec3 → Vec3 → Ordering := compareLex (compareOn z) (compareLex (compareOn x) (compareOn y))

end Vec3

end AssetCache
