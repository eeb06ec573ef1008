import AssetCache.ByteReader

/-! # Numbered records

Definitions of one kind are stored in a pair of files: an index that gives the number of records and the
size of each, and the records back to back after two bytes that are not looked at. -/

namespace AssetCache.DefinitionTable
open ByteReader

/-- Where the first record starts. -/
def firstRecord : Nat := 2

/-- Cuts off `count` more records onto the reversed `acc`. `rest` is what a file of `length` bytes
holds from `offset` on, `index` the sizes yet to be read. -/
def splitAfter (length : Nat) :
    (count offset : Nat) → (rest index : Bytes) → (acc : List Bytes) → Except LoadError (List Bytes)
  | 0, _, _, _, acc => .ok acc.reverse
  | count + 1, offset, rest, index, acc =>
    match u16.run index with
    | .error e => .error e
    | .ok (size, index) =>
      let stop := offset + size.toNat
      if length < stop then .error (.corrupted (.recordBeyondData acc.length offset stop length))
      else splitAfter length count stop (rest.drop size.toNat) index (rest.take size.toNat :: acc)

/-- The records of a data file with the given index. -/
def split (data index : Bytes) : Except LoadError (List Bytes) := do
  let (count, sizes) ← u16.run index
  splitAfter data.length count.toNat firstRecord (data.drop firstRecord) sizes []

/-- Decodes every record; the id of a record is its place. -/
def decodeAll {α : Type} (kind : DefinitionKind) (decode : UInt16 → ByteReader α)
    (data index : Bytes) : Except LoadError (List α) := do
  let records ← split data index
  records.zipIdx.mapM fun (record, id) =>
    match (decode (UInt16.ofNat id)).run record with
    | .ok (a, _) => .ok a
    | .error e => .error (.definition kind id e)

/-- The data file of records. -/
def joinData (records : List Bytes) : Bytes :=
  Bytes.ofU16 (UInt16.ofNat records.length) ++ records.flatten

/-- The index of records. -/
def joinIndex (records : List Bytes) : Bytes :=
  Bytes.ofU16 (UInt16.ofNat records.length) ++
    records.flatMap fun record => Bytes.ofU16 (UInt16.ofNat record.length)

end AssetCache.DefinitionTable
