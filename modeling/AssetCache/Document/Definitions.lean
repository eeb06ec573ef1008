import AssetCache.Document
import AssetCache.Manager

/-! # Definitions as documents

Every kind of definition has one written form, with a member for each field. -/

namespace AssetCache
open Document

def Vec2.document (v : Vec2) : Document := object [("x", number v.x), ("y", number v.y)]

def Vec3.document (v : Vec3) : Document :=
  object [("x", number v.x), ("y", number v.y), ("z", number v.z)]

def Recolor.document (r : Recolor) : Document :=
  object [("from", nat r.source.toNat), ("to", nat r.target.toNat)]

namespace Document

def word (w : UInt16) : Document := nat w.toNat

/-- An id, or null. -/
def id? : Option UInt16 → Document := optional word

/-- A text, or null. -/
def text? : Option String → Document := optional string

def recolors (rs : List Recolor) : Document := list (rs.map Recolor.document)

end Document

def StackVariant.document (v : StackVariant) : Document :=
  object [("item_id", word v.itemId), ("amount", word v.amount)]

def Item.document (i : Item) : Document :=
  object [("id", word i.id), ("name", text? i.name), ("description", text? i.description),
    ("model_id", word i.modelId), ("zoom", word i.zoom), ("rotation", i.rotation.document),
    ("offset", i.offset.document), ("scale", i.scale.document), ("value", nat i.value.toNat),
    ("stackable", bool i.stackable), ("members", bool i.members),
    ("ground_actions", list (i.groundActions.toList.map text?)),
    ("actions", list (i.actions.toList.map text?)), ("recolors", Document.recolors i.recolors),
    ("male_models", list (i.maleModels.toList.map id?)),
    ("female_models", list (i.femaleModels.toList.map id?)), ("male_offset", number i.maleOffset.toInt),
    ("female_offset", number i.femaleOffset.toInt),
    ("male_head_models", list (i.maleHeads.toList.map id?)),
    ("female_head_models", list (i.femaleHeads.toList.map id?)),
    ("stack_variants", list (i.stackVariants.toList.map (optional StackVariant.document))),
    ("note_id", id? i.noteId), ("note_template_id", id? i.noteTemplateId),
    ("light_modifier", number i.light.toInt), ("shadow_modifier", number i.shadow),
    ("team", nat i.team.toNat)]

def ObjectModel.document (m : ObjectModel) : Document :=
  object [("model_id", word m.modelId), ("model_type", optional (fun t => nat t.toNat) m.modelType)]

def WorldObject.document (o : WorldObject) : Document :=
  object [("id", word o.id), ("name", text? o.name), ("description", text? o.description),
    ("size", o.size.document), ("flags", string o.flags.text),
    ("models", list (o.models.map ObjectModel.document)), ("animation", id? o.animation),
    ("decor_displacement", nat o.decorDisplacement.toNat), ("ambient", number o.ambient.toInt),
    ("contrast", number o.contrast.toInt), ("actions", list (o.actions.toList.map text?)),
    ("recolors", Document.recolors o.recolors), ("map_function", id? o.mapFunction),
    ("map_scene", id? o.mapScene), ("scale", o.scale.document),
    ("translation", o.shift.document), ("surroundings", nat o.surroundings.toNat),
    ("support_items", optional (fun n => nat n.toNat) o.supportItems), ("varbit_id", id? o.varbitId),
    ("config_id", id? o.configId), ("children", list (o.children.map id?))]

def ChildPlacement.document (c : ChildPlacement) : Document :=
  object [("id", word c.id), ("position", c.position.document)]

def TextStyle.document (s : TextStyle) : Document :=
  object [("centered", bool s.centered), ("font", nat s.font.toNat), ("shadowed", bool s.shadowed),
    ("colour", nat s.colour.toNat)]

def SlotSprite.document (s : SlotSprite) : Document :=
  object [("offset", s.offset.document), ("sprite", string s.sprite)]

/-- A shape by name, with what is particular to it. -/
def Shape.document : Shape → Document
  | .container scrollMax hidden children =>
    object [("type", string "container"), ("scroll_max", word scrollMax), ("hidden", bool hidden),
      ("children", list (children.map ChildPlacement.document))]
  | .unused style => object [("type", string "unused"), ("style", style.document)]
  | .inventory swappable hasActions usable replacesItems padding sprites =>
    object [("type", string "inventory"), ("swappable", bool swappable), ("has_actions", bool hasActions),
      ("usable", bool usable), ("replaces_items", bool replacesItems), ("padding", padding.document),
      ("sprites", list (sprites.map (optional SlotSprite.document)))]
  | .rectangle filled colour activeColour hoverColour activeHoverColour =>
    object [("type", string "rectangle"), ("filled", bool filled), ("colour", nat colour.toNat),
      ("active_colour", nat activeColour.toNat), ("hover_colour", nat hoverColour.toNat),
      ("active_hover_colour", nat activeHoverColour.toNat)]
  | .text style content activeText activeColour hoverColour activeHoverColour =>
    object [("type", string "text"), ("style", style.document), ("text", string content),
      ("active_text", string activeText), ("active_colour", nat activeColour.toNat),
      ("hover_colour", nat hoverColour.toNat), ("active_hover_colour", nat activeHoverColour.toNat)]
  | .sprite inactive active =>
    object [("type", string "sprite"), ("sprite", text? inactive), ("active_sprite", text? active)]
  | .model inactive active animation activeAnimation zoom rotation =>
    object [("type", string "model"), ("model", id? inactive), ("active_model", id? active),
      ("animation", id? animation), ("active_animation", id? activeAnimation), ("zoom", word zoom),
      ("rotation", rotation.document)]
  | .itemList style padding hasActions =>
    object [("type", string "item_list"), ("style", style.document), ("padding", padding.document),
      ("has_actions", bool hasActions)]
  | .tooltip content => object [("type", string "tooltip"), ("text", string content)]

def Condition.document (c : Condition) : Document :=
  object [("kind", nat c.kind.toNat), ("value", word c.value)]

def SelectedAction.document (a : SelectedAction) : Document :=
  object [("action_name", string a.actionName), ("spell_name", string a.spellName),
    ("targets", word a.targets)]

def Interface.document (i : Interface) : Document :=
  object [("id", word i.id), ("kind", i.shape.document), ("action_type", nat i.actionType.toNat),
    ("content_type", word i.contentType), ("width", word i.width), ("height", word i.height),
    ("opacity", nat i.opacity.toNat), ("hover_id", id? i.hoverId),
    ("conditions", list (i.conditions.map Condition.document)),
    ("scripts", list (i.scripts.map fun script => list (script.map word))),
    ("actions", optional (fun actions => list (actions.map text?)) i.actions),
    ("selected_action", optional SelectedAction.document i.selectedAction),
    ("tooltip", text? i.tooltip), ("parent", id? i.parent), ("children", list (i.children.map word))]

/-- A slot for every id, null where no interface has it. -/
def InterfaceTable.document (t : InterfaceTable) : Document :=
  object [("interfaces", list (t.slots.toList.map (optional Interface.document)))]

def Region.document (r : Region) : Document :=
  object [("x", nat r.x.toNat), ("y", nat r.y.toNat), ("terrain_id", word r.terrainId),
    ("objects_id", word r.objectsId), ("preload", bool r.preload)]

def ItemStack.document (s : ItemStack) : Document :=
  object [("item_id", word s.itemId), ("amount", nat s.amount.toNat)]

def PlacedObject.document (o : PlacedObject) : Document :=
  object [("object_id", word o.objectId), ("object_type", nat o.kind.toNat),
    ("orientation", nat o.orientation.toNat)]

namespace Tile

/-- The members of a tile. -/
def members (t : Tile) : List (String × Document) :=
  [("items", list (t.items.map ItemStack.document)),
    ("objects", list (t.objects.toList.map PlacedObject.document))]

def document (t : Tile) : Document := object t.members

end Tile

/-- A region and its tiles, each with its position. -/
def WorldMap.regionDocument (m : WorldMap) (r : Region) : Document :=
  object [("region", r.document),
    ("tiles", list ((m.regionTiles r).map fun (p, t) => object (("position", p.document) :: t.members)))]

end AssetCache
