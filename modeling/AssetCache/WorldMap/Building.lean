import AssetCache.WorldMap

/-! # What a map is built from

Said region by region, without the table of tiles and without files that are kept: the objects that a region
places, and the step at which a build fails. -/

namespace AssetCache

/-- The object file of a region, ready to be decoded. -/
def Region.objectFile (fetch : UInt16 → Except LoadError Bytes) (r : Region) : Except LoadError Bytes :=
  fetch r.objectsId >>= Gzip.inflate

namespace WorldMap

/-- An object as it stands on the tile that it is placed on. -/
def placed (p : Placement) : PlacedObject :=
  { objectId := p.objectId, kind := p.kind, orientation := p.orientation }

/-- The tile that objects are placed on, if there are any. -/
def tileOf : List Placement → Option Tile
  | [] => none
  | p :: ps => some { items := [], objects := ((p :: ps).map placed).toArray }

section
variable (objectCount : Nat) (fetch : UInt16 → Except LoadError Bytes)

/-- That a region places the given objects, and that all of them are defined. -/
structure Places (r : Region) (placements : List Placement) : Prop where
  decoded : ∃ file, r.objectFile fetch = .ok file ∧ Placement.decodeAll file r.x r.y = .ok placements
  defined : ∀ p ∈ placements, p.objectId.toNat < objectCount

/-- A step that fails: the file of a region cannot be had, its placements cannot be read, or one of them is
of an object that is not defined. -/
inductive Fault
  | file (r : Region) (cause : LoadError)
  | stream (r : Region) (cause : LoadError)
  | object (r : Region) (p : Placement)
deriving DecidableEq, Repr

def Fault.error : Fault → LoadError
  | file _ cause => cause
  | stream r cause => .definition .region r.id cause
  | object _ p => .unknownObject p.objectId objectCount

/-- That a region fails, and at which of its steps first. -/
inductive FailsAt (r : Region) : Fault → Prop
  | file {cause : LoadError} : r.objectFile fetch = .error cause → FailsAt r (.file r cause)
  | stream {file : Bytes} {cause : LoadError} : r.objectFile fetch = .ok file →
      Placement.decodeAll file r.x r.y = .error cause → FailsAt r (.stream r cause)
  | object {file : Bytes} {before after : List Placement} {p : Placement} : r.objectFile fetch = .ok file →
      Placement.decodeAll file r.x r.y = .ok (before ++ p :: after) →
      (∀ q ∈ before, q.objectId.toNat < objectCount) → objectCount ≤ p.objectId.toNat →
      FailsAt r (.object r p)

/-- That the regions before one of them place all their objects, and that this one fails. -/
def FirstFault (regions : List Region) (fault : Fault) : Prop :=
  ∃ before r after, regions = before ++ r :: after ∧
    (∀ q ∈ before, ∃ placements, Places objectCount fetch q placements) ∧ FailsAt objectCount fetch r fault

end

end WorldMap

end AssetCache
