import AssetCache.Item

/-! # Items by their latest operations

An item as it is once only the latest operation with each op-code is known: each part is what the operation with
its op-code gives, or else its default. No other operation has a say in it. -/

namespace AssetCache.Item

namespace Op

/-- The word of an operation that has one. -/
def word? : Op → Option UInt16
  | .model word | .zoom word | .rotationX word | .rotationY word | .rotationZ word | .maleModel word _
  | .maleModel2 word | .maleModel3 word | .femaleModel word _ | .femaleModel2 word | .femaleModel3 word
  | .maleHead _ word | .femaleHead _ word | .note word | .noteTemplate word | .scaleX word | .scaleY word
  | .scaleZ word => some word
  | _ => none

def offset? : Op → Option Int16
  | .offsetX distance | .offsetY distance => some distance
  | _ => none

/-- The signed byte of an operation that has one. -/
def shade? : Op → Option Int8
  | .maleModel _ n | .femaleModel _ n | .light n | .shadow n => some n
  | _ => none

/-- The text of an operation that has one and does not hide it. -/
def text? : Op → Option String
  | .name t | .description t => some t
  | .groundAction _ t? | .action _ t? => t?
  | _ => none

def coins? : Op → Option UInt32
  | .value coins => some coins
  | _ => none

def recolors? : Op → Option (List Recolor)
  | .recolors changes => some changes
  | _ => none

def variant? : Op → Option StackVariant
  | .stackVariant _ v => some v
  | _ => none

def team? : Op → Option UInt8
  | .team n => some n
  | _ => none

end Op

/-- The item that the latest operations make, each of them found by its op-code. -/
def ofLatest (id : UInt16) (latest : UInt8 → Option Op) : Item :=
  let word? code := (latest code).bind Op.word?
  let number code (default : UInt16) : Int := ((word? code).getD default).toNat
  let offset code : Int := (((latest code).bind Op.offset?).getD 0).toInt
  let shade code := ((latest code).bind Op.shade?).getD 0
  let text? code := (latest code).bind Op.text?
  let variant? code := (latest code).bind Op.variant?
  { id
    name := text? 2
    description := text? 3
    modelId := (word? 1).getD 0
    zoom := (word? 4).getD 2000
    rotation := ⟨number 5 0, number 6 0, number 95 0⟩
    offset := ⟨offset 7, offset 8⟩
    scale := ⟨number 110 128, number 111 128, number 112 128⟩
    value := ((latest 12).bind Op.coins?).getD 1
    stackable := (latest 11).isSome
    members := (latest 16).isSome
    groundActions := #v[text? 30, text? 31, text? 32, text? 33, text? 34]
    actions := #v[text? 35, text? 36, text? 37, text? 38, text? 39]
    recolors := ((latest 40).bind Op.recolors?).getD []
    maleModels := #v[word? 23, word? 24, word? 78]
    femaleModels := #v[word? 25, word? 26, word? 79]
    maleOffset := shade 23
    femaleOffset := shade 25
    maleHeads := #v[word? 90, word? 92]
    femaleHeads := #v[word? 91, word? 93]
    stackVariants := #v[variant? 100, variant? 101, variant? 102, variant? 103, variant? 104, variant? 105,
      variant? 106, variant? 107, variant? 108, variant? 109]
    noteId := word? 97
    noteTemplateId := word? 98
    light := shade 113
    shadow := 5 * (shade 114).toInt
    team := ((latest 115).bind Op.team?).getD 0 }

end AssetCache.Item
