import AssetCache.WorldObject
import AssetCache.OpStream.Grammar

/-! # How the operations of world objects are spelled -/

namespace AssetCache.WorldObject
open Bytes

/-- The bytes of a model that is for one kind of placement. -/
def ofTypedModel (m : ObjectModel) : Bytes := ofU16 m.modelId ++ [m.modelType.getD 0]

/-- The bytes of a model that is for any kind of placement. -/
def ofModel (m : ObjectModel) : Bytes := ofU16 m.modelId

/-- The op-codes and the payloads of an operation. -/
def Op.Spells (op : Op) (code : UInt8) (w : Bytes) : Prop :=
  match op with
  | .models ms => ms.length < 256 ∧
    ((code = 1 ∧ (∀ m ∈ ms, m.modelType.isSome) ∧ w = ofCounted ofTypedModel ms) ∨
      (code = 5 ∧ (∀ m ∈ ms, m.modelType = none) ∧ w = ofCounted ofModel ms))
  | .name text => code = 2 ∧ IsLine text ∧ w = ofLine text
  | .description text => code = 3 ∧ IsLine text ∧ w = ofLine text
  | .sizeX tiles => code = 14 ∧ w = [tiles]
  | .sizeY tiles => code = 15 ∧ w = [tiles]
  | .notSolid => code = 17 ∧ w = []
  | .notImpenetrable => code = 18 ∧ w = []
  | .interactive yes => code = 19 ∧ ∃ b : UInt8, w = [b] ∧ (yes ↔ b = 1)
  | .adjustToTerrain => code = 21 ∧ w = []
  | .static => code = 22 ∧ w = []
  | .wall => code = 23 ∧ w = []
  | .animation id => code = 24 ∧ id ≠ some 0xFFFF ∧ w = ofOptional id
  | .decorDisplacement distance => code = 28 ∧ w = [distance]
  | .ambient light => code = 29 ∧ w = [light.toUInt8]
  | .action slot a => code = UInt8.ofNat (30 + slot) ∧ SpellsAction a w
  | .contrast light => code = 39 ∧ w = [light.toUInt8]
  | .recolors rs => code = 40 ∧ rs.length < 256 ∧ w = ofCounted Recolor.encode rs
  | .mapFunction id => code = 60 ∧ w = ofU16 id
  | .rotated => code = 62 ∧ w = []
  | .shadowless => code = 64 ∧ w = []
  | .scaleX scale => code = 65 ∧ w = ofU16 scale
  | .scaleY scale => code = 66 ∧ w = ofU16 scale
  | .scaleZ scale => code = 67 ∧ w = ofU16 scale
  | .mapScene id => code = 68 ∧ w = ofU16 id
  | .surroundings directions => code = 69 ∧ w = [directions]
  | .shiftX distance => code = 70 ∧ w = ofU16 distance.toUInt16
  | .shiftY distance => code = 71 ∧ w = ofU16 distance.toUInt16
  | .shiftZ distance => code = 72 ∧ w = ofU16 distance.toUInt16
  | .obstructsGround => code = 73 ∧ w = []
  | .hollow => code = 74 ∧ w = []
  | .supportItems count => code = 75 ∧ w = [count]
  | .children varbitId configId ids => code = 77 ∧ varbitId ≠ some 0xFFFF ∧ configId ≠ some 0xFFFF ∧
    (∀ id ∈ ids, id ≠ some 0xFFFF) ∧ ∃ count : UInt8, ids.length = count.toNat + 1 ∧
      w = ofOptional varbitId ++ ofOptional configId ++ count :: ids.flatMap ofOptional

/-- The op-code for the part of an object that an op-code is about: 1 and 5 are both about its models. -/
def fieldCode (code : UInt8) : UInt8 := if code = 5 then 1 else code

end AssetCache.WorldObject
