import AssetCache.Placement

/-! # Object files as they may be written

A small number may be written short or long, so a file of placements has many written forms. `IsFile`
says what all of them are: groups of one object each, in which ids and offsets only grow. -/

namespace AssetCache.Placement

/-- The written forms of a number below `0x8000`. -/
inductive IsSmart : UInt16 → Bytes → Prop
  | short {w : UInt16} : w < 0x80 → IsSmart w [w.toUInt8]
  | long {w : UInt16} : w < 0x8000 → IsSmart w (Bytes.ofU16 (w + 0x8000))

/-- Where an object stands, and its attributes. -/
abbrev Spot := Nat × UInt8

/-- The written forms of the spots of one object after the given offset. -/
inductive IsGroup : (offset : Nat) → List Spot → Bytes → Prop
  | done {offset : Nat} {zero : Bytes} : IsSmart 0 zero → IsGroup offset [] zero
  | spot {offset next : Nat} {attributes : UInt8} {spots : List Spot} {step : UInt16} {s rest : Bytes} :
    next = offset + (step.toNat - 1) → step ≠ 0 → next ≤ offsetLimit → IsSmart step s →
      IsGroup next spots rest → IsGroup offset ((next, attributes) :: spots) (s ++ attributes :: rest)

/-- The written forms of groups whose ids are not below `bound`. -/
inductive IsFile : (bound : Nat) → List (UInt16 × List Spot) → Bytes → Prop
  | done {bound : Nat} {zero : Bytes} : IsSmart 0 zero → IsFile bound [] zero
  | group {bound : Nat} {id : UInt16} {spots : List Spot} {groups : List (UInt16 × List Spot)}
    {step : UInt16} {s group rest : Bytes} :
    id.toNat + 1 = bound + step.toNat → step ≠ 0 → IsSmart step s → IsGroup 0 spots group →
      IsFile (id.toNat + 1) groups rest → IsFile bound ((id, spots) :: groups) (s ++ group ++ rest)

/-- The placements that groups stand for in the region with the given coordinates. -/
def ofGroups (x y : UInt8) (groups : List (UInt16 × List Spot)) : List Placement :=
  groups.flatMap fun (id, spots) => spots.map fun (offset, attributes) =>
    { objectId := id
      position :=
        { x := (64 : Int) * x.toNat + ((offset >>> 6) &&& 63 : Nat)
          y := (64 : Int) * y.toNat + (offset &&& 63 : Nat)
          z := (offset >>> 12 : Nat) }
      kind := attributes >>> 2
      orientation := attributes &&& 3 }

/-- The offset and the attributes of a placement in the region with the given coordinates. -/
def spot (x y : UInt8) (p : Placement) : Spot :=
  ((p.position.z.toNat <<< 12) ||| ((p.position.x - 64 * x.toNat).toNat <<< 6) |||
      (p.position.y - 64 * y.toNat).toNat,
    (p.kind <<< 2) ||| p.orientation)

end AssetCache.Placement
