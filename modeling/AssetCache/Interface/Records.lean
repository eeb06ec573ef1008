import AssetCache.Interface.Table

/-! # The records of an interface file

Said without reading: an interface file is the number of ids, and then one record after the other, each with
its id in front, and at times a marker before that. `Linkable` says which records can be linked, `Linked` what
comes of it. -/

namespace AssetCache

/-- A record of an interface file, and the group parent that a marker right before it names. -/
structure InterfaceRecord where
  marker : Option UInt16
  interface : Interface
deriving DecidableEq, Repr

namespace InterfaceRecord

/-- That bytes are the head of a record: its id, with or without a marker in front. -/
inductive Head (max : UInt16) : Bytes → Option UInt16 → UInt16 → Prop
  | plain {id : UInt16} : id < max → Head max (Bytes.ofU16 id) none id
  | marked {parent id : UInt16} : parent < max → id < max →
      Head max (Bytes.ofU16 InterfaceTable.groupMarker ++ Bytes.ofU16 parent ++ Bytes.ofU16 id) (some parent) id

/-- That bytes are the given records, in a file whose ids are below `max`. -/
inductive Spells (max : UInt16) : Bytes → List InterfaceRecord → Prop
  | nil : Spells max [] []
  | cons {head body rest : Bytes} {marker : Option UInt16} {id : UInt16} {i : Interface}
      {rs : List InterfaceRecord} : Head max head marker id →
      (Interface.read id max).run body = .ok (i, rest) → Spells max rest rs →
      Spells max (head ++ body) (⟨marker, i⟩ :: rs)

variable (rs : List InterfaceRecord)

/-- The ids of records. -/
def ids : List UInt16 := rs.map (·.interface.id)

/-- The parent of the group that the record at a place belongs to: what the last marker before it names. -/
def groupParent? (place : Nat) : Option UInt16 := ((rs.take (place + 1)).filterMap (·.marker)).getLast?

/-- That no container lists itself, that there is a record for everything that is listed, that nothing is
listed twice, and that there is a record for the parent of every group but one that is its own. -/
structure Linkable : Prop where
  not_self : ∀ r ∈ rs, r.interface.id ∉ r.interface.declaredChildren
  child : ∀ r ∈ rs, ∀ c ∈ r.interface.declaredChildren, c ∈ ids rs
  once : (rs.flatMap (·.interface.declaredChildren)).Nodup
  group : ∀ place r p, rs[place]? = some r → groupParent? rs place = some p → p ≠ r.interface.id → p ∈ ids rs

/-- What a table holds for the record at a place. -/
structure LinkedAt (t : InterfaceTable) (place : Nat) (r : InterfaceRecord) (i : Interface) : Prop where
  stored : t.get? r.interface.id = some i
  rest : i = { r.interface with parent := i.parent, children := r.interface.declaredChildren }
  /-- The container that lists an interface is its parent. -/
  listed : ∀ q ∈ rs, r.interface.id ∈ q.interface.declaredChildren → i.parent = some q.interface.id
  /-- An interface that no container lists has the parent of its group, unless that is the interface. -/
  unlisted : (∀ q ∈ rs, r.interface.id ∉ q.interface.declaredChildren) →
    i.parent = (groupParent? rs place).filter (· ≠ r.interface.id)
  not_own_parent : i.parent ≠ some r.interface.id
  children : (t.childrenOf r.interface.id).map (·.id) = r.interface.declaredChildren
  child_parent : ∀ c ∈ t.childrenOf r.interface.id, c.parent = some r.interface.id

/-- That a table holds the records and nothing else, linked, in the order of their ids. -/
structure Linked (t : InterfaceTable) : Prop where
  linked : ∀ place r, rs[place]? = some r → ∃ i, LinkedAt rs t place r i
  mem : ∀ i, i ∈ t.toList ↔ i.id ∈ ids rs ∧ t.get? i.id = some i
  ascending : (t.toList.map (·.id)).Pairwise (· < ·)

end InterfaceRecord

end AssetCache
