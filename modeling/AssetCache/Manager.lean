import AssetCache.Archive
import AssetCache.Interface.Table
import AssetCache.Item.Note
import AssetCache.WorldMap
import AssetCache.WorldObject

/-! # The asset manager

A manager hands out what a source of archives holds. It keeps every archive that it has read and parsed,
so that each is read once; map files it reads anew each time. A failure keeps nothing and leaves the
manager as usable as before. Once closed, a manager answers nothing any more. -/

namespace AssetCache

/-- The bytes of an archive, by category and id. -/
abbrev Source := UInt8 → UInt32 → Except LoadError Bytes

/-- What a manager has kept and done. -/
structure Manager where
  kept : List ((UInt8 × UInt32) × Archive) := []
  closed : Bool := false
  /-- The archives asked of the source, the last one first. -/
  reads : List (UInt8 × UInt32) := []

/-- All assets of a cache. -/
structure Assets where
  items : Array Item
  objects : List WorldObject
  interfaces : InterfaceTable
  map : WorldMap

/-- An action that may fail, after which the manager goes on in either case. -/
abbrev Load := ExceptT LoadError (StateM Manager)

namespace Manager

/-- The category of archives. -/
def archiveCategory : UInt8 := 0

/-- The category of map files. -/
def mapCategory : UInt8 := 4

/-- The archive that holds item and object definitions. -/
def configArchive : UInt32 := 2

/-- The archive that holds the interface file. -/
def interfaceArchive : UInt32 := 3

/-- The archive that holds the region table. -/
def versionArchive : UInt32 := 5

/-- Fails if the manager is closed. -/
def requireOpen : Load Unit := do
  if (← get).closed then throw .closed

/-- Notes that the source was asked for an archive. -/
def note (key : UInt8 × UInt32) : Load Unit := modify fun m => { m with reads := key :: m.reads }

/-- The bytes of an archive, straight from the source. -/
def readRaw (source : Source) (category : UInt8) (archive : UInt32) : Load Bytes := do
  requireOpen
  note (category, archive)
  liftExcept (source category archive)

/-- An archive, read and parsed unless it has been before. -/
def archive (source : Source) (category : UInt8) (archive : UInt32) : Load Archive := do
  requireOpen
  match (← get).kept.lookup (category, archive) with
  | some a => pure a
  | none =>
    let raw ← readRaw source category archive
    let a ← liftExcept (Archive.parse raw)
    modify fun m => { m with kept := ((category, archive), a) :: m.kept }
    pure a

/-- A file of an archive. -/
def file (source : Source) (category : UInt8) (id : UInt32) (name : String) : Load Bytes := do
  liftExcept ((← archive source category id).file name)

/-- The items. -/
def items (source : Source) : Load (Array Item) := do
  let config ← archive source archiveCategory configArchive
  let data ← liftExcept (config.file "obj.dat")
  let index ← liftExcept (config.file "obj.idx")
  liftExcept (Item.decodeAll data index)

/-- The world objects. -/
def objects (source : Source) : Load (List WorldObject) := do
  let config ← archive source archiveCategory configArchive
  let data ← liftExcept (config.file "loc.dat")
  let index ← liftExcept (config.file "loc.idx")
  liftExcept (WorldObject.decodeAll data index)

/-- The interfaces. -/
def interfaces (source : Source) : Load InterfaceTable := do
  let data ← file source archiveCategory interfaceArchive "data"
  liftExcept (InterfaceTable.decode data)

/-- The map, of objects with ids below `objectCount`. -/
def mapOf (source : Source) (objectCount : Nat) : Load WorldMap := do
  let table ← file source archiveCategory versionArchive "map_index"
  let regions ← liftExcept (Region.decodeAll table)
  let (asked, map) := WorldMap.build regions objectCount fun id => source mapCategory id.toUInt32
  asked.forM fun id => note (mapCategory, id.toUInt32)
  liftExcept map

/-- The map, once the objects are known. -/
def map (source : Source) : Load WorldMap := do
  let objects ← objects source
  mapOf source objects.length

/-- Everything, or the first failure. -/
def loadAll (source : Source) : Load Assets := do
  let items ← items source
  let objects ← objects source
  let interfaces ← interfaces source
  let map ← mapOf source objects.length
  pure { items, objects, interfaces, map }

/-- Lets go of everything kept, for good. -/
def close (m : Manager) : Manager := { m with kept := [], closed := true }

/-- How many archives are kept. -/
def keptCount (m : Manager) : Nat := m.kept.length

/-- What a manager says of itself. -/
def describe (m : Manager) : String :=
  s!"AssetManager \x7b closed: {m.closed}, cached_archives: {m.keptCount} \x7d"

end Manager

end AssetCache
