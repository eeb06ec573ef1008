import AssetCache.Region

/-! # Region tables in words

The same table with the coordinates of an entry packed into one word and taken apart by shifts. Reading does not
count the entries: it goes on while anything is left. -/

namespace AssetCache.Region.Words
open ByteReader Reader

/-- Both coordinates in one word. -/
def id (r : Region) : UInt32 := r.x.toUInt32 <<< 8 ||| r.y.toUInt32

/-- Reads an entry. -/
def read : ByteReader Region := do
  let coordinates ← u16
  let terrainId ← u16
  let objectsId ← u16
  let preload ← byte
  pure { x := (coordinates >>> 8).toUInt8, y := (coordinates &&& 0xFF).toUInt8, terrainId, objectsId,
         preload := preload == 1 }

/-- One more entry onto the reversed `acc`, or the end of them if nothing is left. -/
def more (acc : List Region) : ByteReader (List Region ⊕ List Region) := do
  if ← atEnd then pure (.inr acc.reverse)
  else (fun r => .inl (r :: acc)) <$> read

theorem progress_more : Progress more := by
  intro acc s st r h
  obtain ⟨finished, t, hend, hrest⟩ := run_bind_eq_ok.1 h
  cases hend
  split at hrest
  · cases hrest
  · exact (strict_u16.bind _).map _ s _ _ hrest

/-- Reads entries while anything is left. -/
def readAll : ByteReader (List Region) := loop more progress_more []

/-- Reads a region table. -/
def decodeAll (table : Bytes) : Except LoadError (List Region) :=
  if table.length % entrySize ≠ 0 then
    .error (.corrupted (.regionTableLength table.length entrySize))
  else do
    let (regions, _) ← readAll.run table
    pure regions

/-- The bytes of an entry. -/
def encode (r : Region) : Bytes :=
  Bytes.ofU16 (id r).toUInt16 ++ Bytes.ofU16 r.terrainId ++ Bytes.ofU16 r.objectsId ++ [r.preload.toUInt8]

end AssetCache.Region.Words
