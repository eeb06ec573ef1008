import AssetCache.Geometry
import AssetCache.ByteReader

/-! # Interfaces

An interface is a widget of one of nine shapes. Records stand back to back without sizes, so each one
has to say by itself where it ends: `Interface.read` takes exactly the bytes of one record after its
id. -/

namespace AssetCache

/-- A child of a container and its place in it. -/
structure ChildPlacement where
  id : UInt16
  position : Vec2
deriving DecidableEq, Repr

/-- How text is written. -/
structure TextStyle where
  centered : Bool
  font : UInt8
  shadowed : Bool
  colour : UInt32
deriving DecidableEq, Repr

/-- The background of an inventory slot. -/
structure SlotSprite where
  offset : Vec2
  sprite : String
deriving DecidableEq, Repr

/-- What is particular to each shape. -/
inductive Shape
  | container (scrollMax : UInt16) (hidden : Bool) (children : List ChildPlacement)
  | unused (style : TextStyle)
  | inventory (swappable hasActions usable replacesItems : Bool) (padding : Vec2)
    (sprites : List (Option SlotSprite))
  | rectangle (filled : Bool) (colour activeColour hoverColour activeHoverColour : UInt32)
  | text (style : TextStyle) (text activeText : String)
    (activeColour hoverColour activeHoverColour : UInt32)
  | sprite (sprite activeSprite : Option String)
  | model (model activeModel animation activeAnimation : Option UInt16) (zoom : UInt16)
    (rotation : Vec2)
  | itemList (style : TextStyle) (padding : Vec2) (hasActions : Bool)
  | tooltip (text : String)
deriving DecidableEq, Repr

/-- The number that stands for a shape. -/
def Shape.typeId : Shape → UInt8
  | container .. => 0
  | unused .. => 1
  | inventory .. => 2
  | rectangle .. => 3
  | text .. => 4
  | sprite .. => 5
  | model .. => 6
  | itemList .. => 7
  | tooltip .. => 8

/-- What a click that selects a target first asks for. -/
structure SelectedAction where
  actionName : String
  spellName : String
  targets : UInt16
deriving DecidableEq, Repr

/-- A comparison that makes an interface active. -/
structure Condition where
  kind : UInt8
  value : UInt16
deriving DecidableEq, Repr

/-- The definition of an interface. -/
structure Interface where
  id : UInt16
  shape : Shape
  actionType : UInt8
  contentType : UInt16
  width : UInt16
  height : UInt16
  opacity : UInt8
  /-- The interface that is shown under the pointer. -/
  hoverId : Option UInt16
  conditions : List Condition
  scripts : List (List UInt16)
  /-- The five actions of shapes that hold items. -/
  actions : Option (List (Option String))
  selectedAction : Option SelectedAction
  tooltip : Option String
  parent : Option UInt16 := none
  children : List UInt16 := []
deriving DecidableEq, Repr

namespace Interface
open ByteReader

/-- A byte that is 1 for yes. -/
def flag : ByteReader Bool := (· = 1) <$> byte

/-- An id in two bytes of which the first is one too high, or a single zero for none. -/
def packedId : ByteReader (Option UInt16) := do
  let high ← byte
  if high = 0 then pure none
  else
    let low ← byte
    pure (some (Bytes.toU16 (high - 1) low))

/-- A text, or none if it is empty. -/
def label : ByteReader (Option String) := do
  let t ← text
  pure (if t = "" then none else some t)

/-- How many action slots a shape that holds items has. -/
def actionSlots : Nat := 5

/-- How many slots with a background an inventory has. -/
def spriteSlots : Nat := 20

def readActions : ByteReader (List (Option String)) := label.replicate actionSlots

def readStyle : ByteReader TextStyle := do
  let centered ← flag
  let font ← byte
  let shadowed ← flag
  let colour ← u32
  pure { centered, font, shadowed, colour }

/-- A pair of signed words. -/
def readOffset : ByteReader Vec2 := do
  let x ← i16
  let y ← i16
  pure ⟨x.toInt, y.toInt⟩

/-- An id that has to be below `max`. -/
def checkId (id max : UInt16) : ByteReader Unit :=
  if id < max then pure () else Reader.fail (.invalidInterfaceId id max)

def readChild (max : UInt16) : ByteReader ChildPlacement := do
  let id ← u16
  checkId id max
  let position ← readOffset
  pure { id, position }

def readSlotSprite : ByteReader (Option SlotSprite) := do
  if ← flag then
    let offset ← readOffset
    let sprite ← text
    pure (some { offset, sprite })
  else pure none

def readCondition : ByteReader Condition := do
  let kind ← byte
  let value ← u16
  pure { kind, value }

def readScript : ByteReader (List UInt16) := do
  let length ← u16
  u16.replicate length.toNat

def readContainer (max : UInt16) : ByteReader Shape := do
  let scrollMax ← u16
  let hidden ← flag
  let count ← u16
  let children ← (readChild max).replicate count.toNat
  pure (.container scrollMax hidden children)

def readUnused : ByteReader Shape := do
  let _ ← u16
  let _ ← byte
  .unused <$> readStyle

def readInventory : ByteReader Shape := do
  let swappable ← flag
  let hasActions ← flag
  let usable ← flag
  let replacesItems ← flag
  let padX ← byte
  let padY ← byte
  let sprites ← readSlotSprite.replicate spriteSlots
  pure (.inventory swappable hasActions usable replacesItems ⟨padX.toNat, padY.toNat⟩ sprites)

def readRectangle : ByteReader Shape := do
  let filled ← flag
  let colour ← u32
  let activeColour ← u32
  let hoverColour ← u32
  let activeHoverColour ← u32
  pure (.rectangle filled colour activeColour hoverColour activeHoverColour)

/-- The colour of the style comes after both texts. -/
def readText : ByteReader Shape := do
  let centered ← flag
  let font ← byte
  let shadowed ← flag
  let content ← text
  let activeText ← text
  let colour ← u32
  let activeColour ← u32
  let hoverColour ← u32
  let activeHoverColour ← u32
  pure (.text { centered, font, shadowed, colour } content activeText activeColour hoverColour
    activeHoverColour)

def readSprite : ByteReader Shape := do
  let sprite ← label
  let activeSprite ← label
  pure (.sprite sprite activeSprite)

def readModel : ByteReader Shape := do
  let model ← packedId
  let activeModel ← packedId
  let animation ← packedId
  let activeAnimation ← packedId
  let zoom ← u16
  let x ← u16
  let y ← u16
  pure (.model model activeModel animation activeAnimation zoom ⟨x.toNat, y.toNat⟩)

def readItemList : ByteReader Shape := do
  let style ← readStyle
  let padding ← readOffset
  let hasActions ← flag
  pure (.itemList style padding hasActions)

/-- What is particular to the shape with the given number; the text of a tooltip comes later. -/
def readShape (max : UInt16) (typeId : UInt8) : ByteReader Shape :=
  match typeId with
  | 0 => readContainer max
  | 1 => readUnused
  | 2 => readInventory
  | 3 => readRectangle
  | 4 => readText
  | 5 => readSprite
  | 6 => readModel
  | 7 => readItemList
  | 8 => pure (.tooltip "")
  | code => Reader.fail (.unknownOpCode .interfaceType code)

/-- Whether a shape has action slots. -/
def hasActionSlots (typeId : UInt8) : Bool := typeId = 2 || typeId = 7

/-- Whether a record has a selected action. -/
def hasSelectedAction (typeId actionType : UInt8) : Bool := actionType = 2 || typeId = 2

/-- Whether a record ends with a tooltip. -/
def hasTooltip (actionType : UInt8) : Bool :=
  actionType = 1 || actionType = 4 || actionType = 5 || actionType = 6

def readSelectedAction : ByteReader SelectedAction := do
  let actionName ← text
  let spellName ← text
  let targets ← u16
  pure { actionName, spellName, targets }

/-- `p` if it is there, else nothing. -/
def readIf {α : Type} (present : Bool) (p : ByteReader α) : ByteReader (Option α) :=
  if present then some <$> p else pure none

/-- The text of a tooltip, which comes after the selected action. -/
def readTooltipText : Shape → ByteReader Shape
  | .tooltip _ => .tooltip <$> text
  | shape => pure shape

/-- Reads the record of an interface, after its id. Ids of children have to be below `max`. -/
def read (id max : UInt16) : ByteReader Interface := do
  let typeId ← byte
  let actionType ← byte
  let contentType ← u16
  let width ← u16
  let height ← u16
  let opacity ← byte
  let hoverId ← packedId
  let conditionCount ← byte
  let conditions ← readCondition.replicate conditionCount.toNat
  let scriptCount ← byte
  let scripts ← readScript.replicate scriptCount.toNat
  let shape ← readShape max typeId
  let actions ← readIf (hasActionSlots typeId) readActions
  let selectedAction ← readIf (hasSelectedAction typeId actionType) readSelectedAction
  let shape ← readTooltipText shape
  let tooltip ← readIf (hasTooltip actionType) text
  pure { id, shape, actionType, contentType, width, height, opacity, hoverId, conditions, scripts,
         actions, selectedAction, tooltip }

/-- The children that a container lists. -/
def declaredChildren (i : Interface) : List UInt16 :=
  match i.shape with
  | .container _ _ children => children.map (·.id)
  | _ => []

def isContainer (i : Interface) : Bool :=
  match i.shape with
  | .container .. => true
  | _ => false

end Interface

end AssetCache
