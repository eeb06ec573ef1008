import AssetCache.Item

/-! # Notes

A note is drawn like its template and counts as the item it is linked to. `resolveNotes` goes once
through a table from its start, so that a note whose template or link comes earlier sees what has
already become of that. -/

namespace AssetCache.Item

/-- The description of every resolved note. -/
def noteDescription : String := "Swap this note at any bank for the equivalent item."

/-- A note as its template and its linked item make it. -/
def asNote (i template linked : Item) : Item :=
  { i with
    modelId := template.modelId
    zoom := template.zoom
    rotation := template.rotation
    offset := template.offset
    recolors := template.recolors
    name := linked.name
    value := linked.value
    members := linked.members
    stackable := true
    description := some noteDescription }

/-- The template and the linked item of an item, if it names both and the table holds both. -/
def noteSources? (table : Array Item) (i : Item) : Option (Item × Item) := do
  let templateId ← i.noteTemplateId
  let linkedId ← i.noteId
  let template ← table[templateId.toNat]?
  let linked ← table[linkedId.toNat]?
  pure (template, linked)

/-- Resolves the item at a place of the table. -/
def resolveAt (table : Array Item) (place : Nat) : Array Item :=
  match table[place]?.bind fun i => (noteSources? table i).map (i, ·) with
  | some (i, template, linked) => table.setIfInBounds place (i.asNote template linked)
  | none => table

/-- Resolves every item of a table, from the first to the last. -/
def resolveNotes (table : Array Item) : Array Item :=
  (List.range table.size).foldl resolveAt table

/-- The items of a data file with the given index. -/
def decodeAll (data index : Bytes) : Except LoadError (Array Item) := do
  pure (resolveNotes (← DefinitionTable.decodeAll .item read data index).toArray)

end AssetCache.Item
