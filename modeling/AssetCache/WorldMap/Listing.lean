import AssetCache.WorldMap
import AssetCache.Placement.Words

/-! # Listing a table without an order

The tiles of a region, from a table that gives them in whatever order: those that lie in the region are collected
and sorted. A place has coordinates in words, and the region that it lies in is found with shifts. -/

namespace AssetCache

namespace Placement.Words.Triple

/-- The column of regions that holds a place. -/
def regionX (p : Triple) : Int32 := p.x >>> 6

/-- The row of regions that holds a place. -/
def regionY (p : Triple) : Int32 := p.y >>> 6

end Placement.Words.Triple

namespace Region
open Placement.Words

/-- The coordinates in the world. -/
def coordinates (r : Region) : UInt8 × UInt8 := (r.x, r.y)

end Region

end AssetCache
