import AssetCache.WorldObject

/-! # World objects by their latest operations

An object whose record is not at its end, as it is once only the latest operation about each part is known. The
op-codes 1 and 5 are both about the models, and 1 stands for both. -/

namespace AssetCache.WorldObject

namespace Op

def models? : Op → Option (List ObjectModel)
  | .models ms => some ms
  | _ => none

/-- The text of an operation that has one and does not hide it. -/
def text? : Op → Option String
  | .name t | .description t => some t
  | .action _ t? => t?
  | _ => none

/-- The byte of an operation that has one. -/
def byte? : Op → Option UInt8
  | .sizeX n | .sizeY n | .decorDisplacement n | .surroundings n | .supportItems n => some n
  | _ => none

def light? : Op → Option Int8
  | .ambient light | .contrast light => some light
  | _ => none

/-- The word of an operation that has one. -/
def word? : Op → Option UInt16
  | .mapFunction word | .mapScene word | .scaleX word | .scaleY word | .scaleZ word => some word
  | _ => none

def distance? : Op → Option Int16
  | .shiftX distance | .shiftY distance | .shiftZ distance => some distance
  | _ => none

def recolors? : Op → Option (List Recolor)
  | .recolors changes => some changes
  | _ => none

def animation? : Op → Option UInt16
  | .animation id => id
  | _ => none

def varbitId? : Op → Option UInt16
  | .children varbitId _ _ => varbitId
  | _ => none

def configId? : Op → Option UInt16
  | .children _ configId _ => configId
  | _ => none

def children? : Op → Option (List (Option UInt16))
  | .children _ _ ids => some ids
  | _ => none

/-- Whether an operation declares the object interactive. -/
def isInteractive : Op → Bool
  | .interactive yes => yes
  | _ => false

end Op

/-- The flags that the latest operations make. -/
def flagsOfLatest (latest : UInt8 → Option Op) : ObjectFlags where
  solid := (latest 17).isNone
  impenetrable := (latest 18).isNone
  interactive := (latest 19).any Op.isInteractive
  adjustToTerrain := (latest 21).isSome
  static := (latest 22).isSome
  wall := (latest 23).isSome
  rotated := (latest 62).isSome
  shadowless := (latest 64).isSome
  obstructsGround := (latest 73).isSome
  hollow := (latest 74).isSome

/-- The draft that the latest operations make, each of them found by its op-code. -/
def Draft.ofLatest (id : UInt16) (latest : UInt8 → Option Op) : Draft :=
  let text? code := (latest code).bind Op.text?
  let byte? code := (latest code).bind Op.byte?
  let light code := ((latest code).bind Op.light?).getD 0
  let scale code : Int := (((latest code).bind Op.word?).getD 128).toNat
  let distance code : Int := (((latest code).bind Op.distance?).getD 0).toInt
  { object :=
      { id
        name := text? 2
        description := text? 3
        size := ⟨((byte? 14).getD 1).toNat, ((byte? 15).getD 1).toNat⟩
        flags := flagsOfLatest latest
        models := ((latest 1).bind Op.models?).getD []
        animation := (latest 24).bind Op.animation?
        decorDisplacement := (byte? 28).getD 16
        ambient := light 29
        contrast := light 39
        actions := #v[text? 30, text? 31, text? 32, text? 33, text? 34]
        recolors := ((latest 40).bind Op.recolors?).getD []
        mapFunction := (latest 60).bind Op.word?
        mapScene := (latest 68).bind Op.word?
        scale := ⟨scale 65, scale 66, scale 67⟩
        shift := ⟨distance 70, distance 71, distance 72⟩
        surroundings := (byte? 69).getD 0
        supportItems := byte? 75
        varbitId := (latest 77).bind Op.varbitId?
        configId := (latest 77).bind Op.configId?
        children := ((latest 77).bind Op.children?).getD [] }
    declared := (latest 19).isSome }

end AssetCache.WorldObject
