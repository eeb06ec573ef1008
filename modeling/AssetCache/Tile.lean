/-! # Tiles

A tile holds the objects that stand on it, which never change once the map is built, and the stacks of
items that lie on it, the newest on top. -/

namespace AssetCache

/-- Items of one kind that lie on the ground. -/
structure ItemStack where
  itemId : UInt16
  amount : UInt32
deriving DecidableEq, Repr

/-- An object as it stands on its tile. -/
structure PlacedObject where
  objectId : UInt16
  kind : UInt8
  orientation : UInt8
deriving DecidableEq, Repr

/-- What is on a tile. -/
structure Tile where
  /-- The newest stack first. -/
  items : List ItemStack := []
  /-- In the order in which they were placed. -/
  objects : Array PlacedObject := #[]
deriving DecidableEq, Repr

namespace Tile
variable (t : Tile)

/-- Puts an object next to those that are there. -/
def place (o : PlacedObject) : Tile := { t with objects := t.objects.push o }

/-- Puts a stack on top. -/
def addItem (stack : ItemStack) : Tile := { t with items := stack :: t.items }

/-- The topmost stack of an item. -/
def findItem? (itemId : UInt16) : Option ItemStack := t.items.find? (·.itemId = itemId)

/-- Takes the topmost stack of an item away. -/
def removeItem (itemId : UInt16) : Tile := { t with items := t.items.eraseP (·.itemId = itemId) }

end Tile

end AssetCache
