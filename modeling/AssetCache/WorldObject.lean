import AssetCache.DefinitionTable
import AssetCache.Geometry
import AssetCache.OpStream

/-! # World objects

Objects are the scenery of the world. Their records are read like those of items; when all operations
are applied, `finish` derives the flags that depend on the whole record. -/

namespace AssetCache

/-- What an object does to the world around it. -/
structure ObjectFlags where
  solid : Bool := true
  impenetrable : Bool := true
  interactive : Bool := false
  adjustToTerrain : Bool := false
  static : Bool := false
  wall : Bool := false
  rotated : Bool := false
  shadowless : Bool := false
  obstructsGround : Bool := false
  hollow : Bool := false
deriving DecidableEq, Repr

namespace ObjectFlags

/-- The flags by name, from the lowest bit up. -/
def named (f : ObjectFlags) : List (String × Bool) :=
  [("SOLID", f.solid), ("IMPENETRABLE", f.impenetrable), ("INTERACTIVE", f.interactive),
    ("ADJUST_TO_TERRAIN", f.adjustToTerrain), ("STATIC", f.static), ("WALL", f.wall),
    ("ROTATED", f.rotated), ("SHADOWLESS", f.shadowless), ("OBSTRUCTS_GROUND", f.obstructsGround),
    ("HOLLOW", f.hollow)]

/-- The number whose bits are the flags. -/
def bits (f : ObjectFlags) : Nat := f.named.foldr (fun (_, set) n => set.toNat + 2 * n) 0

/-- The names of the flags that are set. -/
def text (f : ObjectFlags) : String :=
  " | ".intercalate (f.named.filterMap fun (name, set) => if set then some name else none)

end ObjectFlags

/-- A model, and the kind of placement it is for unless it is for any. -/
structure ObjectModel where
  modelId : UInt16
  modelType : Option UInt8
deriving DecidableEq, Repr

/-- The definition of a world object. -/
structure WorldObject where
  id : UInt16
  name : Option String := none
  description : Option String := none
  size : Vec2 := ⟨1, 1⟩
  flags : ObjectFlags := {}
  models : List ObjectModel := []
  animation : Option UInt16 := none
  decorDisplacement : UInt8 := 16
  ambient : Int8 := 0
  contrast : Int8 := 0
  actions : Vector (Option String) 5 := Vector.replicate 5 none
  recolors : List Recolor := []
  mapFunction : Option UInt16 := none
  mapScene : Option UInt16 := none
  scale : Vec3 := Vec3.splat 128
  shift : Vec3 := Vec3.zero
  /-- The directions from which it cannot be approached. -/
  surroundings : UInt8 := 0
  supportItems : Option UInt8 := none
  /-- The variable that selects one of the children. -/
  varbitId : Option UInt16 := none
  /-- The setting that selects one of the children. -/
  configId : Option UInt16 := none
  children : List (Option UInt16) := []
deriving DecidableEq, Repr

namespace WorldObject

/-- An operation of an object record. -/
inductive Op
  | models (models : List ObjectModel)
  | name (text : String)
  | description (text : String)
  | sizeX (tiles : UInt8)
  | sizeY (tiles : UInt8)
  | notSolid
  | notImpenetrable
  | interactive (yes : Bool)
  | adjustToTerrain
  | static
  | wall
  | animation (id : Option UInt16)
  | decorDisplacement (distance : UInt8)
  | ambient (light : Int8)
  | action (slot : Fin 5) (action : Option String)
  | contrast (light : Int8)
  | recolors (recolors : List Recolor)
  | mapFunction (id : UInt16)
  | rotated
  | shadowless
  | scaleX (scale : UInt16)
  | scaleY (scale : UInt16)
  | scaleZ (scale : UInt16)
  | mapScene (id : UInt16)
  | surroundings (directions : UInt8)
  | shiftX (distance : Int16)
  | shiftY (distance : Int16)
  | shiftZ (distance : Int16)
  | obstructsGround
  | hollow
  | supportItems (count : UInt8)
  | children (varbitId configId : Option UInt16) (children : List (Option UInt16))
deriving DecidableEq, Repr

open ByteReader

/-- Reads a counted list of models that are each for one kind of placement. -/
def Op.readTypedModels : ByteReader Op := do
  let count ← byte
  .models <$> (do pure ⟨← u16, some (← byte)⟩ : ByteReader ObjectModel).replicate count.toNat

/-- Reads a counted list of models that are for any kind of placement. -/
def Op.readModels : ByteReader Op := do
  let count ← byte
  .models <$> (do pure ⟨← u16, none⟩ : ByteReader ObjectModel).replicate count.toNat

/-- Reads the children, of which there is one more than the count says. -/
def Op.readChildren : ByteReader Op := do
  let varbitId ← readOptional
  let configId ← readOptional
  let last ← byte
  .children varbitId configId <$> readOptional.replicate (last.toNat + 1)

/-- The payload of each op-code. -/
def Op.payload? : UInt8 → Option (ByteReader Op)
  | 1 => some readTypedModels
  | 2 => some (.name <$> text)
  | 3 => some (.description <$> text)
  | 5 => some readModels
  | 14 => some (.sizeX <$> byte)
  | 15 => some (.sizeY <$> byte)
  | 17 => some (pure .notSolid)
  | 18 => some (pure .notImpenetrable)
  | 19 => some ((fun b => .interactive (b = 1)) <$> byte)
  | 21 => some (pure .adjustToTerrain)
  | 22 => some (pure .static)
  | 23 => some (pure .wall)
  | 24 => some (.animation <$> readOptional)
  | 28 => some (.decorDisplacement <$> byte)
  | 29 => some (.ambient <$> i8)
  | 30 => some (.action 0 <$> readAction)
  | 31 => some (.action 1 <$> readAction)
  | 32 => some (.action 2 <$> readAction)
  | 33 => some (.action 3 <$> readAction)
  | 34 => some (.action 4 <$> readAction)
  | 39 => some (.contrast <$> i8)
  | 40 => some (.recolors <$> readRecolors)
  | 60 => some (.mapFunction <$> u16)
  | 62 => some (pure .rotated)
  | 64 => some (pure .shadowless)
  | 65 => some (.scaleX <$> u16)
  | 66 => some (.scaleY <$> u16)
  | 67 => some (.scaleZ <$> u16)
  | 68 => some (.mapScene <$> u16)
  | 69 => some (.surroundings <$> byte)
  | 70 => some (.shiftX <$> i16)
  | 71 => some (.shiftY <$> i16)
  | 72 => some (.shiftZ <$> i16)
  | 73 => some (pure .obstructsGround)
  | 74 => some (pure .hollow)
  | 75 => some (.supportItems <$> byte)
  | 77 => some readChildren
  | _ => none

/-- The operations of object records. -/
def ops : OpTable Op := ⟨.object, Op.payload?⟩

/-- An object whose record is not at its end. -/
structure Draft where
  object : WorldObject
  /-- Whether the record itself says if the object is interactive. -/
  declared : Bool := false
deriving DecidableEq, Repr

/-- What an operation changes in an object. -/
def apply (o : WorldObject) : Op → WorldObject
  | .models models => { o with models := models }
  | .name text => { o with name := some text }
  | .description text => { o with description := some text }
  | .sizeX tiles => { o with size := { o.size with x := tiles.toNat } }
  | .sizeY tiles => { o with size := { o.size with y := tiles.toNat } }
  | .notSolid => { o with flags := { o.flags with solid := false } }
  | .notImpenetrable => { o with flags := { o.flags with impenetrable := false } }
  | .interactive yes => { o with flags := { o.flags with interactive := yes } }
  | .adjustToTerrain => { o with flags := { o.flags with adjustToTerrain := true } }
  | .static => { o with flags := { o.flags with static := true } }
  | .wall => { o with flags := { o.flags with wall := true } }
  | .animation id => { o with animation := id }
  | .decorDisplacement distance => { o with decorDisplacement := distance }
  | .ambient light => { o with ambient := light }
  | .action slot action => { o with actions := o.actions.set slot action (actionSlot_lt slot) }
  | .contrast light => { o with contrast := light }
  | .recolors recolors => { o with recolors := recolors }
  | .mapFunction id => { o with mapFunction := some id }
  | .rotated => { o with flags := { o.flags with rotated := true } }
  | .shadowless => { o with flags := { o.flags with shadowless := true } }
  | .scaleX scale => { o with scale := { o.scale with x := scale.toNat } }
  | .scaleY scale => { o with scale := { o.scale with y := scale.toNat } }
  | .scaleZ scale => { o with scale := { o.scale with z := scale.toNat } }
  | .mapScene id => { o with mapScene := some id }
  | .surroundings directions => { o with surroundings := directions }
  | .shiftX distance => { o with shift := { o.shift with x := distance.toInt } }
  | .shiftY distance => { o with shift := { o.shift with y := distance.toInt } }
  | .shiftZ distance => { o with shift := { o.shift with z := distance.toInt } }
  | .obstructsGround => { o with flags := { o.flags with obstructsGround := true } }
  | .hollow => { o with flags := { o.flags with hollow := true } }
  | .supportItems count => { o with supportItems := some count }
  | .children varbitId configId children =>
    { o with varbitId := varbitId, configId := configId, children := children }

/-- What an operation changes in a draft. -/
def Draft.apply (d : Draft) (op : Op) : Draft where
  object := d.object.apply op
  declared := match op with
    | .interactive _ => true
    | _ => d.declared

/-- The placement type of objects that fill their tile. -/
def centrepieceType : UInt8 := 10

/-- Whether the object has models, and all of them are for, or also for, the middle of a tile. -/
def isCentrepiece (o : WorldObject) : Bool :=
  !o.models.isEmpty && o.models.all fun m => m.modelType.all (· = centrepieceType)

/-- The object of a draft. It is interactive as declared, or else if it is a centrepiece or has an
action; a hollow object blocks nothing. -/
def Draft.finish (d : Draft) : WorldObject :=
  let o := d.object
  let f := o.flags
  let interactive := if d.declared then f.interactive else o.isCentrepiece || o.actions.any Option.isSome
  { o with
    flags := { f with
      interactive
      solid := f.solid && !f.hollow
      impenetrable := f.impenetrable && !f.hollow } }

/-- The object with the given id and operations. -/
def ofOps (id : UInt16) (ops : List Op) : WorldObject :=
  (ops.foldl Draft.apply { object := { id } }).finish

/-- Reads the record of an object. -/
def read (id : UInt16) : ByteReader WorldObject := ofOps id <$> ops.read

/-- Whether a variable or a setting changes what the object looks like. -/
def hasChildren (o : WorldObject) : Bool := !o.children.isEmpty

/-- The objects of a data file with the given index. -/
def decodeAll (data index : Bytes) : Except LoadError (List WorldObject) :=
  DefinitionTable.decodeAll .object read data index

end WorldObject

end AssetCache
