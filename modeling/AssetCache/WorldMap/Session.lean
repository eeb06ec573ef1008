import AssetCache.WorldMap

/-! # A running map

What is done to a map once it is built: stacks are dropped, picked up and looked at, and tiles are asked for that
may not exist yet. -/

namespace AssetCache.WorldMap

/-- What can be done to a map. -/
inductive Action
  | drop (p : Vec3) (stack : ItemStack)
  | ensure (p : Vec3)
  | look (p : Vec3)
  | remove (p : Vec3) (itemId : UInt16)
deriving DecidableEq, Repr

/-- What an action is answered with. -/
inductive Outcome
  | dropped (accepted : Bool)
  | tile (tile? : Option Tile)
  | removed (stack? : Option ItemStack)
deriving DecidableEq, Repr

namespace Action

/-- The tile that an action is about. -/
def position : Action → Vec3
  | drop p _ => p
  | ensure p => p
  | look p => p
  | remove p _ => p

/-- Where there is a tile from now on, if the action sees to that. -/
def settles? : Action → Outcome → Option Vec3
  | drop p _, .dropped true => some p
  | ensure p, _ => some p
  | _, _ => none

end Action

/-- The map after an action, and the answer. -/
def perform (m : WorldMap) : Action → WorldMap × Outcome
  | .drop p stack =>
    let (next, accepted) := m.drop p stack
    (next, .dropped accepted)
  | .ensure p => (m.ensureTile p, .tile ((m.ensureTile p).tile? p))
  | .look p => (m, .tile (m.tile? p))
  | .remove p itemId =>
    let (next, stack?) := m.removeItem p itemId
    (next, .removed stack?)

/-- The map after a row of actions, and the answers. -/
def performAll : List Action → WorldMap → WorldMap × List Outcome
  | [], m => (m, [])
  | a :: as, m =>
    let (m, outcome) := m.perform a
    let (m, outcomes) := performAll as m
    (m, outcome :: outcomes)

end AssetCache.WorldMap
