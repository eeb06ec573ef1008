import AssetCache.Tile

/-! # Items on a tile

What is done to the items of a tile, stack by stack, and the piles that items of one kind would make if they lay
alone. -/

namespace AssetCache

/-- What can be done to the items of a tile. -/
inductive ItemAction
  | add (stack : ItemStack)
  | remove (itemId : UInt16)
deriving DecidableEq, Repr

namespace ItemAction

/-- The item that an action is about. -/
def itemId : ItemAction → UInt16
  | add stack => stack.itemId
  | remove itemId => itemId

/-- What an action adds. -/
def added? : ItemAction → Option ItemStack
  | add stack => some stack
  | remove _ => none

end ItemAction

namespace Tile

/-- The tile after an action, and the stack that was taken away. -/
def perform (t : Tile) : ItemAction → Tile × Option ItemStack
  | .add stack => (t.addItem stack, none)
  | .remove itemId => (t.removeItem itemId, t.findItem? itemId)

/-- The tile after a row of actions, and the stacks that were taken away by each. -/
def performAll : List ItemAction → Tile → Tile × List (Option ItemStack)
  | [], t => (t, [])
  | a :: as, t =>
    let (t, taken) := t.perform a
    let (t, answers) := performAll as t
    (t, taken :: answers)

end Tile

/-- The amounts of stacks of one item, the last one put there first. -/
abbrev Pile := List UInt32

namespace Pile

/-- The pile after an action, and the amount that was taken off it. -/
def perform (pile : Pile) : ItemAction → Pile × Option UInt32
  | .add stack => (stack.amount :: pile, none)
  | .remove _ => (pile.tail, pile.head?)

/-- The pile after a row of actions, and the amounts that were taken off it by each. -/
def performAll : List ItemAction → Pile → Pile × List (Option UInt32)
  | [], pile => (pile, [])
  | a :: as, pile =>
    let (pile, taken) := pile.perform a
    let (pile, answers) := performAll as pile
    (pile, taken :: answers)

end Pile

end AssetCache
