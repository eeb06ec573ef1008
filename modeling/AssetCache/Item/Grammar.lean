import AssetCache.Item
import AssetCache.OpStream.Grammar

/-! # How the operations of items are spelled -/

namespace AssetCache.Item
open Bytes

/-- The op-code and the payload of an operation. -/
def Op.Spells (op : Op) (code : UInt8) (w : Bytes) : Prop :=
  match op with
  | .model id => code = 1 ∧ w = ofU16 id
  | .name text => code = 2 ∧ IsLine text ∧ w = ofLine text
  | .description text => code = 3 ∧ IsLine text ∧ w = ofLine text
  | .zoom z => code = 4 ∧ w = ofU16 z
  | .rotationX angle => code = 5 ∧ w = ofU16 angle
  | .rotationY angle => code = 6 ∧ w = ofU16 angle
  | .offsetX offset => code = 7 ∧ w = ofU16 offset.toUInt16
  | .offsetY offset => code = 8 ∧ w = ofU16 offset.toUInt16
  | .unused word => code = 10 ∧ w = ofU16 word
  | .stackable => code = 11 ∧ w = []
  | .value coins => code = 12 ∧ w = ofU32 coins
  | .members => code = 16 ∧ w = []
  | .maleModel id offset => code = 23 ∧ w = ofU16 id ++ [offset.toUInt8]
  | .maleModel2 id => code = 24 ∧ w = ofU16 id
  | .femaleModel id offset => code = 25 ∧ w = ofU16 id ++ [offset.toUInt8]
  | .femaleModel2 id => code = 26 ∧ w = ofU16 id
  | .groundAction slot a => code = UInt8.ofNat (30 + slot) ∧ SpellsAction a w
  | .action slot a => code = UInt8.ofNat (35 + slot) ∧ SpellsAction a w
  | .recolors rs => code = 40 ∧ rs.length < 256 ∧ w = ofCounted Recolor.encode rs
  | .maleModel3 id => code = 78 ∧ w = ofU16 id
  | .femaleModel3 id => code = 79 ∧ w = ofU16 id
  | .maleHead slot id => code = UInt8.ofNat (90 + 2 * slot) ∧ w = ofU16 id
  | .femaleHead slot id => code = UInt8.ofNat (91 + 2 * slot) ∧ w = ofU16 id
  | .rotationZ angle => code = 95 ∧ w = ofU16 angle
  | .note id => code = 97 ∧ w = ofU16 id
  | .noteTemplate id => code = 98 ∧ w = ofU16 id
  | .stackVariant slot variant =>
    code = UInt8.ofNat (100 + slot) ∧ w = ofU16 variant.itemId ++ ofU16 variant.amount
  | .scaleX scale => code = 110 ∧ w = ofU16 scale
  | .scaleY scale => code = 111 ∧ w = ofU16 scale
  | .scaleZ scale => code = 112 ∧ w = ofU16 scale
  | .light n => code = 113 ∧ w = [n.toUInt8]
  | .shadow fifths => code = 114 ∧ w = [fifths.toUInt8]
  | .team n => code = 115 ∧ w = [n]

end AssetCache.Item
