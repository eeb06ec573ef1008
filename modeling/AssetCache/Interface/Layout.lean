import AssetCache.Interface

/-! # The layout of interface records

What a record looks like, part by part. `Fits` says which interfaces have one: texts are lines, counts
and ids have room, and the parts that depend on the shape or on the action are there exactly when they
have to be. -/

namespace AssetCache

/-- A byte that is 1 for yes. -/
def encodeFlag (b : Bool) : Bytes := [b.toUInt8]

/-- An id in two bytes of which the first is one too high, or a single zero for none. -/
def encodePackedId : Option UInt16 → Bytes
  | none => [0]
  | some id => Bytes.ofU16 (id + 0x100)

/-- A text, which is empty for none. -/
def encodeLabel (label : Option String) : Bytes := Bytes.ofLine (label.getD "")

/-- A pair of signed words. -/
def encodeOffset (v : Vec2) : Bytes :=
  Bytes.ofU16 (Int16.ofInt v.x).toUInt16 ++ Bytes.ofU16 (Int16.ofInt v.y).toUInt16

/-- The background of an inventory slot, if it has one. -/
def encodeSlotSprite : Option SlotSprite → Bytes
  | none => encodeFlag false
  | some s => encodeFlag true ++ encodeOffset s.offset ++ Bytes.ofLine s.sprite

/-- Whether an id can be packed. -/
def PackedIdFits (id : Option UInt16) : Prop := ∀ w ∈ id, w ≤ 0xFEFF

/-- Whether a label is a line that is not empty. -/
def LabelFits (label : Option String) : Prop := ∀ t ∈ label, t ≠ "" ∧ Bytes.IsLine t

/-- Whether both components are signed words. -/
def OffsetFits (v : Vec2) : Prop := (-32768 ≤ v.x ∧ v.x < 32768) ∧ -32768 ≤ v.y ∧ v.y < 32768

instance (id : Option UInt16) : Decidable (PackedIdFits id) :=
  (Option.decidableForallMem id : Decidable (∀ w ∈ id, w ≤ 0xFEFF))

instance (label : Option String) : Decidable (LabelFits label) :=
  (Option.decidableForallMem label : Decidable (∀ t ∈ label, t ≠ "" ∧ Bytes.IsLine t))

instance (v : Vec2) : Decidable (OffsetFits v) :=
  inferInstanceAs (Decidable ((-32768 ≤ v.x ∧ v.x < 32768) ∧ -32768 ≤ v.y ∧ v.y < 32768))

namespace TextStyle

def encode (s : TextStyle) : Bytes :=
  encodeFlag s.centered ++ [s.font] ++ encodeFlag s.shadowed ++ Bytes.ofU32 s.colour

end TextStyle

namespace Shape

/-- What comes before the actions. An unused shape has `word` and `byte` in front of its style, of which
nothing is known. -/
def encode (word : UInt16) (byte : UInt8) : Shape → Bytes
  | container scrollMax hidden children =>
    Bytes.ofU16 scrollMax ++ encodeFlag hidden ++ Bytes.ofU16 (UInt16.ofNat children.length) ++
      children.flatMap fun c => Bytes.ofU16 c.id ++ encodeOffset c.position
  | unused style => Bytes.ofU16 word ++ [byte] ++ style.encode
  | inventory swappable hasActions usable replacesItems padding sprites =>
    encodeFlag swappable ++ encodeFlag hasActions ++ encodeFlag usable ++ encodeFlag replacesItems ++
      [UInt8.ofNat padding.x.toNat, UInt8.ofNat padding.y.toNat] ++
      sprites.flatMap encodeSlotSprite
  | rectangle filled colour activeColour hoverColour activeHoverColour =>
    encodeFlag filled ++ Bytes.ofU32 colour ++ Bytes.ofU32 activeColour ++ Bytes.ofU32 hoverColour ++
      Bytes.ofU32 activeHoverColour
  | text style content activeText activeColour hoverColour activeHoverColour =>
    encodeFlag style.centered ++ [style.font] ++ encodeFlag style.shadowed ++ Bytes.ofLine content ++
      Bytes.ofLine activeText ++ Bytes.ofU32 style.colour ++ Bytes.ofU32 activeColour ++
      Bytes.ofU32 hoverColour ++ Bytes.ofU32 activeHoverColour
  | sprite inactive active => encodeLabel inactive ++ encodeLabel active
  | model inactive active animation activeAnimation zoom rotation =>
    encodePackedId inactive ++ encodePackedId active ++ encodePackedId animation ++
      encodePackedId activeAnimation ++ Bytes.ofU16 zoom ++
      Bytes.ofU16 (UInt16.ofNat rotation.x.toNat) ++ Bytes.ofU16 (UInt16.ofNat rotation.y.toNat)
  | itemList style padding hasActions => style.encode ++ encodeOffset padding ++ encodeFlag hasActions
  | tooltip _ => []

/-- What comes after the selected action. -/
def encodeTooltip : Shape → Bytes
  | tooltip content => Bytes.ofLine content
  | _ => []

/-- Whether a shape has a layout; ids of children have to be below `max`. -/
def Fits (max : UInt16) : Shape → Prop
  | container _ _ children =>
    children.length < 0x10000 ∧ ∀ c ∈ children, c.id < max ∧ OffsetFits c.position
  | unused _ => True
  | inventory _ _ _ _ padding sprites =>
    (0 ≤ padding.x ∧ padding.x < 256) ∧ (0 ≤ padding.y ∧ padding.y < 256) ∧
      sprites.length = Interface.spriteSlots ∧
      ∀ sprite ∈ sprites, ∀ s ∈ sprite, OffsetFits s.offset ∧ Bytes.IsLine s.sprite
  | rectangle .. => True
  | text _ content activeText _ _ _ => Bytes.IsLine content ∧ Bytes.IsLine activeText
  | sprite inactive active => LabelFits inactive ∧ LabelFits active
  | model inactive active animation activeAnimation _ rotation =>
    PackedIdFits inactive ∧ PackedIdFits active ∧ PackedIdFits animation ∧
      PackedIdFits activeAnimation ∧ (0 ≤ rotation.x ∧ rotation.x < 65536) ∧
      0 ≤ rotation.y ∧ rotation.y < 65536
  | itemList _ padding _ => OffsetFits padding
  | tooltip content => Bytes.IsLine content

end Shape

namespace SelectedAction

def encode (a : SelectedAction) : Bytes :=
  Bytes.ofLine a.actionName ++ Bytes.ofLine a.spellName ++ Bytes.ofU16 a.targets

def Fits (a : SelectedAction) : Prop := Bytes.IsLine a.actionName ∧ Bytes.IsLine a.spellName

end SelectedAction

namespace Interface

/-- The record of an interface, after its id. If its shape is unused, `word` and `byte` stand in front of
its style. -/
def encode (word : UInt16) (byte : UInt8) (i : Interface) : Bytes :=
  [i.shape.typeId, i.actionType] ++ Bytes.ofU16 i.contentType ++ Bytes.ofU16 i.width ++
    Bytes.ofU16 i.height ++ [i.opacity] ++ encodePackedId i.hoverId ++
    [UInt8.ofNat i.conditions.length] ++ (i.conditions.flatMap fun c => c.kind :: Bytes.ofU16 c.value) ++
    [UInt8.ofNat i.scripts.length] ++
    (i.scripts.flatMap fun script =>
      Bytes.ofU16 (UInt16.ofNat script.length) ++ script.flatMap Bytes.ofU16) ++
    i.shape.encode word byte ++ (i.actions.map (·.flatMap encodeLabel)).getD [] ++
    (i.selectedAction.map SelectedAction.encode).getD [] ++ i.shape.encodeTooltip ++
    (i.tooltip.map Bytes.ofLine).getD []

/-- Whether an interface has a record in a file whose ids are below `max`. -/
structure Fits (max : UInt16) (i : Interface) : Prop where
  shape : i.shape.Fits max
  hoverId : PackedIdFits i.hoverId
  conditions : i.conditions.length < 0x100
  scripts : i.scripts.length < 0x100
  script : ∀ script ∈ i.scripts, script.length < 0x10000
  actions_isSome : i.actions.isSome = hasActionSlots i.shape.typeId
  actions : ∀ actions ∈ i.actions, actions.length = actionSlots ∧ ∀ a ∈ actions, LabelFits a
  selectedAction_isSome : i.selectedAction.isSome = hasSelectedAction i.shape.typeId i.actionType
  selectedAction : ∀ a ∈ i.selectedAction, a.Fits
  tooltip_isSome : i.tooltip.isSome = hasTooltip i.actionType
  tooltip : ∀ t ∈ i.tooltip, Bytes.IsLine t
  parent : i.parent = none
  children : i.children = []

end Interface

end AssetCache
