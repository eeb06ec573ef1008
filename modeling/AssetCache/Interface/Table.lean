import AssetCache.Interface

/-! # The interface table

The interface file gives every record its id and, by markers between records, the parent of the group
it belongs to. Once all records are read they are linked: a container is the parent of the children it
lists, and any other interface has the parent of its group, unless that is the interface itself. -/

namespace AssetCache

/-- A record of the interface file, and the parent of its group. -/
structure Declaration where
  interface : Interface
  groupParent : Option UInt16
deriving DecidableEq, Repr

/-- The interfaces of a cache by id; an id that no record has is empty. -/
structure InterfaceTable where
  slots : Array (Option Interface)
deriving DecidableEq, Repr

namespace InterfaceTable
open ByteReader

/-- The word that comes before the id of a group's parent. -/
def groupMarker : UInt16 := 0xFFFF

/-- Where the reading of the records stands: the declarations by id, and the parent of the group. -/
structure Progress where
  slots : Array (Option Declaration)
  groupParent : Option UInt16

/-- The head of a record: the parent of its group if a marker comes first, and its id. -/
def readHead (max : UInt16) (groupParent : Option UInt16) : ByteReader (Option UInt16 × UInt16) := do
  let w ← u16
  if w = groupMarker then
    let parent ← u16
    Interface.checkId parent max
    let id ← u16
    Interface.checkId id max
    pure (some parent, id)
  else
    Interface.checkId w max
    pure (groupParent, w)

/-- One more record. -/
def more (max : UInt16) (p : Progress) : ByteReader (Progress ⊕ Array (Option Declaration)) := do
  if ← Reader.atEnd then pure (.inr p.slots)
  else
    let (groupParent, id) ← readHead max p.groupParent
    let interface ← (Interface.read id max).mapError (.definition .interface id.toNat)
    match p.slots.getD id.toNat none with
    | some _ => Reader.fail (.definition .interface id.toNat (.corrupted (.interfaceTwice id)))
    | none =>
      let slots := p.slots.setIfInBounds id.toNat (some { interface, groupParent })
      pure (.inl { slots, groupParent })

theorem strict_readHead (max : UInt16) (groupParent : Option UInt16) :
    (readHead max groupParent).Strict := strict_u16.bind _

theorem progress_more (max : UInt16) : Reader.Progress (more max) := by
  intro p s st' r h
  unfold more at h
  rw [Reader.run_bind_of_ok (Reader.run_atEnd s)] at h
  split at h
  · nomatch h
  · exact ((strict_readHead max p.groupParent).bind _) _ _ _ h

/-- The declarations of an interface file by id. -/
def readDeclarations : ByteReader (Array (Option Declaration)) := do
  let max ← u16
  Reader.loop (more max) (progress_more max)
    { slots := Array.replicate max.toNat none, groupParent := none }

/-- The containers in the order of their ids, each with the children it lists. -/
def links (slots : Array (Option Declaration)) : List (UInt16 × UInt16) :=
  slots.toList.flatMap fun slot =>
    match slot with
    | some d => d.interface.declaredChildren.map (d.interface.id, ·)
    | none => []

/-- Whether a record has the id. -/
def declares (slots : Array (Option Declaration)) (id : UInt16) : Bool :=
  (slots.getD id.toNat none).isSome

/-- Gives children their owners, link after link. `owners` holds at each id the container that lists
it. -/
def assignOwners (slots : Array (Option Declaration)) :
    List (UInt16 × UInt16) → Array (Option UInt16) → Except LoadError (Array (Option UInt16))
  | [], owners => .ok owners
  | (parent, child) :: rest, owners =>
    if child = parent then
      .error (.definition .interface parent.toNat (.corrupted (.containerListsItself parent)))
    else if !declares slots child then .error (.missingChild parent child)
    else
      match owners.getD child.toNat none with
      | some owner =>
        .error (.definition .interface child.toNat (.corrupted (.listedTwice child owner parent)))
      | none => assignOwners slots rest (owners.setIfInBounds child.toNat (some parent))

/-- The parent that a record gets from its group. -/
def Declaration.groupOwner? (d : Declaration) : Option UInt16 :=
  d.groupParent.filter (· ≠ d.interface.id)

/-- Fails at the first record whose group has a parent that no record has. -/
def checkGroups (slots : Array (Option Declaration)) : Except LoadError Unit :=
  match slots.toList.reduceOption.findSome? fun d =>
      (Declaration.groupOwner? d).bind fun parent =>
        if declares slots parent then none else some (d.interface.id, parent) with
  | some (id, parent) => .error (.missingParent id parent)
  | none => .ok ()

/-- An interface with its parent and its children. -/
def linked (owners : Array (Option UInt16)) (d : Declaration) : Interface :=
  { d.interface with
    parent := (owners.getD d.interface.id.toNat none).or (Declaration.groupOwner? d)
    children := d.interface.declaredChildren }

/-- Links the records of a file. -/
def link (slots : Array (Option Declaration)) : Except LoadError InterfaceTable := do
  let owners ← assignOwners slots (links slots) (Array.replicate slots.size none)
  checkGroups slots
  pure { slots := slots.map fun slot => slot.map (linked owners) }

/-- Reads and links an interface file. -/
def decode (file : Bytes) : Except LoadError InterfaceTable := do
  let (slots, _) ← readDeclarations.run file
  link slots

variable (t : InterfaceTable)

/-- The number of ids that interfaces may have. -/
def maxId : Nat := t.slots.size

/-- The interface with the given id. -/
def get? (id : UInt16) : Option Interface := t.slots.getD id.toNat none

/-- The interfaces in the order of their ids. -/
def toList : List Interface := t.slots.toList.reduceOption

def length : Nat := t.toList.length

/-- The parent of an interface. -/
def parentOf? (id : UInt16) : Option Interface := do t.get? (← (← t.get? id).parent)

/-- The children of an interface. -/
def childrenOf (id : UInt16) : List Interface :=
  match t.get? id with
  | some i => i.children.filterMap t.get?
  | none => []

/-- The interfaces without a parent. -/
def roots : List Interface := t.toList.filter (·.parent.isNone)

end InterfaceTable

end AssetCache
