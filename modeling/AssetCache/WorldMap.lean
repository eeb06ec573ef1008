import AssetCache.Gzip
import AssetCache.Placement
import AssetCache.Region
import AssetCache.Tile
import Std.Data.TreeMap.Basic

/-! # The world map

The map is built region by region: fetch the object file unless an earlier region has brought it, decode
it, and put every object on its tile. Only tiles that something was put on exist. -/

namespace AssetCache

/-- The tiles that exist, in the order in which a region lists them. -/
abbrev TileMap := Std.TreeMap Vec3 Tile Vec3.order

/-- The regions of the world and its tiles. -/
structure WorldMap where
  regions : List Region
  tiles : TileMap

namespace WorldMap

/-- The object files that a map has asked for. -/
structure Fetched where
  /-- The ids asked for, the last one first. -/
  asked : List UInt16 := []
  /-- What was received, ready to be decoded. -/
  files : List (UInt16 × Bytes) := []

/-- The object file with the given id, asked for unless it is there. -/
def Fetched.file (fetch : UInt16 → Except LoadError Bytes) (f : Fetched) (id : UInt16) :
    Fetched × Except LoadError Bytes :=
  match f.files.lookup id with
  | some file => (f, .ok file)
  | none =>
    match fetch id >>= Gzip.inflate with
    | .ok file => ({ asked := id :: f.asked, files := (id, file) :: f.files }, .ok file)
    | .error e => ({ f with asked := id :: f.asked }, .error e)

/-- Puts an object on its tile, if there are enough definitions for its id. -/
def place (objectCount : Nat) (tiles : TileMap) (p : Placement) : Except LoadError TileMap :=
  if p.objectId.toNat < objectCount then
    .ok (tiles.alter p.position fun tile? =>
      some ((tile?.getD {}).place
        { objectId := p.objectId, kind := p.kind, orientation := p.orientation }))
  else .error (.unknownObject p.objectId objectCount)

/-- Puts the objects of a region on their tiles. -/
def placeRegion (objectCount : Nat) (r : Region) (file : Bytes) (tiles : TileMap) :
    Except LoadError TileMap := do
  let placements ← (Placement.decodeAll file r.x r.y).mapError (.definition .region r.id)
  placements.foldlM (place objectCount) tiles

/-- Goes through the regions one after the other. -/
def placeRegions (objectCount : Nat) (fetch : UInt16 → Except LoadError Bytes) :
    List Region → Fetched → TileMap → Fetched × Except LoadError TileMap
  | [], f, tiles => (f, .ok tiles)
  | r :: rs, f, tiles =>
    match f.file fetch r.objectsId with
    | (f, .error e) => (f, .error e)
    | (f, .ok file) =>
      match placeRegion objectCount r file tiles with
      | .error e => (f, .error e)
      | .ok tiles => placeRegions objectCount fetch rs f tiles

/-- Builds the map of the given regions: the ids of the files asked for, in order, and the map. -/
def build (regions : List Region) (objectCount : Nat) (fetch : UInt16 → Except LoadError Bytes) :
    List UInt16 × Except LoadError WorldMap :=
  let (f, tiles) := placeRegions objectCount fetch regions {} ∅
  (f.asked.reverse, tiles.map fun tiles => { regions, tiles })

variable (m : WorldMap)

/-- The first column of tiles beyond all regions. -/
def maxX : Nat := m.regions.foldl (fun n r => max n (regionSize * (r.x.toNat + 1))) 0

/-- The first row of tiles beyond all regions. -/
def maxY : Nat := m.regions.foldl (fun n r => max n (regionSize * (r.y.toNat + 1))) 0

def bounds : Vec2 := ⟨m.maxX, m.maxY⟩

/-- Whether items may be dropped at a place. -/
def inBounds (p : Vec3) : Bool := 0 ≤ p.x && p.x < m.maxX && 0 ≤ p.y && p.y < m.maxY

/-- The first region with the given coordinates. -/
def region? (x y : UInt8) : Option Region := m.regions.find? fun r => r.x = x ∧ r.y = y

def tile? (p : Vec3) : Option Tile := m.tiles[p]?

def tileCount : Nat := m.tiles.size

/-- The tiles of a region, by plane, then from west to east, then from south to north. -/
def regionTiles (r : Region) : List (Vec3 × Tile) := m.tiles.toList.filter fun (p, _) => r.contains p

/-- The map with a tile at `p`, an empty one if there was none. -/
def ensureTile (p : Vec3) : WorldMap :=
  { m with tiles := m.tiles.alter p fun tile? => some (tile?.getD {}) }

/-- Drops a stack, and tells whether that could be done. -/
def drop (p : Vec3) (stack : ItemStack) : WorldMap × Bool :=
  if m.inBounds p then
    ({ m with tiles := m.tiles.alter p fun tile? => some ((tile?.getD {}).addItem stack) }, true)
  else (m, false)

/-- Takes the topmost stack of an item from a tile, if there is one. -/
def removeItem (p : Vec3) (itemId : UInt16) : WorldMap × Option ItemStack :=
  match (m.tile? p).bind (·.findItem? itemId) with
  | some stack => ({ m with tiles := m.tiles.modify p (·.removeItem itemId) }, some stack)
  | none => (m, none)

end WorldMap

end AssetCache
