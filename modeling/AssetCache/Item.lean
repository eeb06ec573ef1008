import AssetCache.DefinitionTable
import AssetCache.Geometry
import AssetCache.OpStream

/-! # Items

An item starts from its defaults and takes on what the operations of its record say, one after the
other. `Item.Op` lists the operations, `Item.apply` says what each one changes. -/

namespace AssetCache

/-- What a stack of at least `amount` looks like. -/
structure StackVariant where
  itemId : UInt16
  amount : UInt16
deriving DecidableEq, Repr

/-- The definition of an item. -/
structure Item where
  id : UInt16
  name : Option String := none
  description : Option String := none
  modelId : UInt16 := 0
  zoom : UInt16 := 2000
  rotation : Vec3 := Vec3.zero
  offset : Vec2 := ⟨0, 0⟩
  scale : Vec3 := Vec3.splat 128
  value : UInt32 := 1
  stackable : Bool := false
  members : Bool := false
  groundActions : Vector (Option String) 5 := Vector.replicate 5 none
  actions : Vector (Option String) 5 := Vector.replicate 5 none
  recolors : List Recolor := []
  maleModels : Vector (Option UInt16) 3 := Vector.replicate 3 none
  femaleModels : Vector (Option UInt16) 3 := Vector.replicate 3 none
  maleOffset : Int8 := 0
  femaleOffset : Int8 := 0
  maleHeads : Vector (Option UInt16) 2 := Vector.replicate 2 none
  femaleHeads : Vector (Option UInt16) 2 := Vector.replicate 2 none
  stackVariants : Vector (Option StackVariant) 10 := Vector.replicate 10 none
  /-- The note of an item, or the item of a note. -/
  noteId : Option UInt16 := none
  /-- The item that a note is drawn like; only notes have one. -/
  noteTemplateId : Option UInt16 := none
  light : Int8 := 0
  shadow : Int := 0
  team : UInt8 := 0
deriving DecidableEq, Repr

namespace Item

/-- An operation of an item record. -/
inductive Op
  | model (id : UInt16)
  | name (text : String)
  | description (text : String)
  | zoom (zoom : UInt16)
  | rotationX (angle : UInt16)
  | rotationY (angle : UInt16)
  | offsetX (offset : Int16)
  | offsetY (offset : Int16)
  | unused (word : UInt16)
  | stackable
  | value (coins : UInt32)
  | members
  | maleModel (id : UInt16) (offset : Int8)
  | maleModel2 (id : UInt16)
  | femaleModel (id : UInt16) (offset : Int8)
  | femaleModel2 (id : UInt16)
  | groundAction (slot : Fin 5) (action : Option String)
  | action (slot : Fin 5) (action : Option String)
  | recolors (recolors : List Recolor)
  | maleModel3 (id : UInt16)
  | femaleModel3 (id : UInt16)
  | maleHead (slot : Fin 2) (id : UInt16)
  | femaleHead (slot : Fin 2) (id : UInt16)
  | rotationZ (angle : UInt16)
  | note (id : UInt16)
  | noteTemplate (id : UInt16)
  | stackVariant (slot : Fin 10) (variant : StackVariant)
  | scaleX (scale : UInt16)
  | scaleY (scale : UInt16)
  | scaleZ (scale : UInt16)
  | light (light : Int8)
  | shadow (fifths : Int8)
  | team (team : UInt8)
deriving DecidableEq, Repr

open ByteReader

/-- Reads a stack variant for a slot. -/
def Op.readVariant (slot : Fin 10) : ByteReader Op := do
  let itemId ← u16
  let amount ← u16
  pure (.stackVariant slot { itemId, amount })

/-- The payload of each op-code. -/
def Op.payload? : UInt8 → Option (ByteReader Op)
  | 1 => some (.model <$> u16)
  | 2 => some (.name <$> text)
  | 3 => some (.description <$> text)
  | 4 => some (.zoom <$> u16)
  | 5 => some (.rotationX <$> u16)
  | 6 => some (.rotationY <$> u16)
  | 7 => some (.offsetX <$> i16)
  | 8 => some (.offsetY <$> i16)
  | 10 => some (.unused <$> u16)
  | 11 => some (pure .stackable)
  | 12 => some (.value <$> u32)
  | 16 => some (pure .members)
  | 23 => some do pure (.maleModel (← u16) (← i8))
  | 24 => some (.maleModel2 <$> u16)
  | 25 => some do pure (.femaleModel (← u16) (← i8))
  | 26 => some (.femaleModel2 <$> u16)
  | 30 => some (.groundAction 0 <$> readAction)
  | 31 => some (.groundAction 1 <$> readAction)
  | 32 => some (.groundAction 2 <$> readAction)
  | 33 => some (.groundAction 3 <$> readAction)
  | 34 => some (.groundAction 4 <$> readAction)
  | 35 => some (.action 0 <$> readAction)
  | 36 => some (.action 1 <$> readAction)
  | 37 => some (.action 2 <$> readAction)
  | 38 => some (.action 3 <$> readAction)
  | 39 => some (.action 4 <$> readAction)
  | 40 => some (.recolors <$> readRecolors)
  | 78 => some (.maleModel3 <$> u16)
  | 79 => some (.femaleModel3 <$> u16)
  | 90 => some (.maleHead 0 <$> u16)
  | 91 => some (.femaleHead 0 <$> u16)
  | 92 => some (.maleHead 1 <$> u16)
  | 93 => some (.femaleHead 1 <$> u16)
  | 95 => some (.rotationZ <$> u16)
  | 97 => some (.note <$> u16)
  | 98 => some (.noteTemplate <$> u16)
  | 100 => some (readVariant 0)
  | 101 => some (readVariant 1)
  | 102 => some (readVariant 2)
  | 103 => some (readVariant 3)
  | 104 => some (readVariant 4)
  | 105 => some (readVariant 5)
  | 106 => some (readVariant 6)
  | 107 => some (readVariant 7)
  | 108 => some (readVariant 8)
  | 109 => some (readVariant 9)
  | 110 => some (.scaleX <$> u16)
  | 111 => some (.scaleY <$> u16)
  | 112 => some (.scaleZ <$> u16)
  | 113 => some (.light <$> i8)
  | 114 => some (.shadow <$> i8)
  | 115 => some (.team <$> byte)
  | _ => none

/-- The operations of item records. -/
def ops : OpTable Op := ⟨.item, Op.payload?⟩

/-- What an operation changes. -/
def apply (i : Item) : Op → Item
  | .model id => { i with modelId := id }
  | .name text => { i with name := some text }
  | .description text => { i with description := some text }
  | .zoom zoom => { i with zoom := zoom }
  | .rotationX angle => { i with rotation := { i.rotation with x := angle.toNat } }
  | .rotationY angle => { i with rotation := { i.rotation with y := angle.toNat } }
  | .offsetX offset => { i with offset := { i.offset with x := offset.toInt } }
  | .offsetY offset => { i with offset := { i.offset with y := offset.toInt } }
  | .unused _ => i
  | .stackable => { i with stackable := true }
  | .value coins => { i with value := coins }
  | .members => { i with members := true }
  | .maleModel id offset => { i with maleModels := i.maleModels.set 0 (some id), maleOffset := offset }
  | .maleModel2 id => { i with maleModels := i.maleModels.set 1 (some id) }
  | .femaleModel id offset =>
    { i with femaleModels := i.femaleModels.set 0 (some id), femaleOffset := offset }
  | .femaleModel2 id => { i with femaleModels := i.femaleModels.set 1 (some id) }
  | .groundAction slot action => { i with groundActions := i.groundActions.set slot action }
  | .action slot action => { i with actions := i.actions.set slot action }
  | .recolors recolors => { i with recolors := recolors }
  | .maleModel3 id => { i with maleModels := i.maleModels.set 2 (some id) }
  | .femaleModel3 id => { i with femaleModels := i.femaleModels.set 2 (some id) }
  | .maleHead slot id => { i with maleHeads := i.maleHeads.set slot (some id) }
  | .femaleHead slot id => { i with femaleHeads := i.femaleHeads.set slot (some id) }
  | .rotationZ angle => { i with rotation := { i.rotation with z := angle.toNat } }
  | .note id => { i with noteId := some id }
  | .noteTemplate id => { i with noteTemplateId := some id }
  | .stackVariant slot variant => { i with stackVariants := i.stackVariants.set slot (some variant) }
  | .scaleX scale => { i with scale := { i.scale with x := scale.toNat } }
  | .scaleY scale => { i with scale := { i.scale with y := scale.toNat } }
  | .scaleZ scale => { i with scale := { i.scale with z := scale.toNat } }
  | .light light => { i with light := light }
  | .shadow fifths => { i with shadow := 5 * fifths.toInt }
  | .team team => { i with team := team }

/-- The item with the given id and operations. -/
def ofOps (id : UInt16) (ops : List Op) : Item := ops.foldl apply { id }

/-- Reads the record of an item. -/
def read (id : UInt16) : ByteReader Item := ofOps id <$> ops.read

variable (i : Item)

/-- Whether the item is a note. -/
def isNoted : Bool := i.noteTemplateId.isSome

/-- The note of an item that is none itself. -/
def notedId : Option UInt16 := if i.isNoted then none else i.noteId

/-- The item that a note stands for. -/
def unnotedId : Option UInt16 := if i.isNoted then i.noteId else none

/-- The item that a stack of `amount` looks like: the last variant that it is large enough for. -/
def appearance (amount : UInt32) : UInt16 :=
  let reached := i.stackVariants.toList.reduceOption.filter fun v =>
    v.amount ≠ 0 ∧ v.amount.toNat ≤ amount.toNat
  match reached.getLast? with
  | some v => v.itemId
  | none => i.id

end Item

end AssetCache
