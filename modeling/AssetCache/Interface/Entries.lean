import AssetCache.Interface.Table

/-! # The entries of an interface file

What a file lists, whether or not it can be linked: the bytes of every record, with its id and the group parent
in force where it stands. `Lists` says which bytes list which entries; the same entries have as many files as
they have orders, and more, since a marker may name a group again. -/

namespace AssetCache

/-- A record as it stands in an interface file, and the parent of the group it stands in. -/
structure InterfaceEntry where
  groupParent : Option UInt16
  id : UInt16
  record : Bytes
deriving DecidableEq, Repr

namespace InterfaceEntry

/-- Whether the record is complete: what is read as one is all of it, or fails for something other than
missing bytes. -/
def isWhole (max : UInt16) (e : InterfaceEntry) : Bool :=
  match (Interface.read e.id max).run e.record with
  | .ok (_, rest) => rest.isEmpty
  | .error (.endOfData ..) => false
  | .error _ => true

/-- What stands in front of a record: the marker of its group, if there is one, and its id. -/
def head : Option UInt16 → UInt16 → Bytes
  | none, id => Bytes.ofU16 id
  | some parent, id => Bytes.ofU16 InterfaceTable.groupMarker ++ Bytes.ofU16 parent ++ Bytes.ofU16 id

/-- That bytes list entries, all of them complete, in a group with the given parent. The ids need not be below
`max`, but the one of a record without a marker is not what a marker is. -/
inductive Lists (max : UInt16) : Option UInt16 → Bytes → List InterfaceEntry → Prop
  | nil {group : Option UInt16} : Lists max group [] []
  | cons {group marker : Option UInt16} {id : UInt16} {record rest : Bytes} {es : List InterfaceEntry} :
      (marker = none → id ≠ InterfaceTable.groupMarker) → isWhole max ⟨marker.or group, id, record⟩ →
      Lists max (marker.or group) rest es →
      Lists max group (head marker id ++ record ++ rest) (⟨marker.or group, id, record⟩ :: es)

end InterfaceEntry

end AssetCache
