import AssetCache.Placement

/-! # Reading object files in words

The same reading with every id, offset and coordinate in a signed word of 32 bits. An id or an offset that is
out of range is an error of the file; any other number that no word holds is an overflow. -/

namespace AssetCache.Placement.Words

/-- Why a reading in words ends early: the file is at fault, or a number does not go into a word. -/
inductive Failure
  | load (cause : LoadError)
  | overflow
deriving DecidableEq, Repr

/-- A reader of cache data that may overflow. -/
abbrev WordReader := Reader UInt8 Failure

/-- A reader that computes nothing. -/
def plain {α : Type} (p : ByteReader α) : WordReader α := p.mapError .load

theorem strict_plain {α : Type} {p : ByteReader α} (hp : p.Strict) : (plain p).Strict := by
  intro s a r h
  simp only [plain, Reader.mapError] at h
  split at h
  · nomatch h
  · next hrun => cases h; exact hp _ _ _ hrun

/-- Whether a word holds a number. -/
def Holds (n : Int) : Prop := -0x80000000 ≤ n ∧ n < 0x80000000

instance (n : Int) : Decidable (Holds n) := inferInstanceAs (Decidable (-0x80000000 ≤ n ∧ n < 0x80000000))

/-- The word of a number. -/
def word (n : Int) : WordReader Int32 := if Holds n then pure (Int32.ofInt n) else Reader.fail .overflow

/-- A triple of words. -/
structure Triple where
  x : Int32
  y : Int32
  z : Int32
deriving DecidableEq, Repr

namespace Triple

def plus (a b : Triple) : WordReader Triple := do
  let x ← word (a.x.toInt + b.x.toInt)
  let y ← word (a.y.toInt + b.y.toInt)
  let z ← word (a.z.toInt + b.z.toInt)
  pure { x, y, z }

def toVec3 (a : Triple) : Vec3 := ⟨a.x.toInt, a.y.toInt, a.z.toInt⟩

end Triple

/-- The corner of the region with the given coordinates. -/
def corner (x y : UInt8) : WordReader Triple := do
  let west ← word (x.toNat * regionSize)
  let south ← word (y.toNat * regionSize)
  pure ⟨west, south, 0⟩

/-- The place that an offset means, from the corner of a region. -/
def tile (offset : Int32) : Triple := ⟨(offset >>> 6) &&& 0x3F, offset &&& 0x3F, offset >>> 12⟩

structure Group where
  offset : Int32
  acc : List Placement

def moreOfGroup (corner : Triple) (x y : UInt8) (objectId : UInt16) (g : Group) :
    WordReader (Group ⊕ List Placement) := do
  let step ← plain ByteReader.smart
  if step = 0 then pure (.inr g.acc)
  else
    let distance ← word ((step.toNat : Int) - 1)
    let sum := g.offset.toInt + distance.toInt
    if ¬ Holds sum then Reader.fail (.load (.corrupted (.offsetRange objectId x y)))
    else
      let offset := Int32.ofInt sum
      let attributes ← plain ByteReader.byte
      let position ← corner.plus (tile offset)
      pure (.inl
        { offset
          acc :=
            { objectId
              position := position.toVec3
              kind := attributes >>> 2
              orientation := attributes &&& 3 } :: g.acc })

theorem progress_moreOfGroup (corner : Triple) (x y : UInt8) (objectId : UInt16) :
    Reader.Progress (moreOfGroup corner x y objectId) :=
  fun _ _ _ _ h => ((strict_plain ByteReader.strict_smart).bind _) _ _ _ h

def readGroup (corner : Triple) (x y : UInt8) (objectId : UInt16) (acc : List Placement) :
    WordReader (List Placement) :=
  Reader.loop (moreOfGroup corner x y objectId) (progress_moreOfGroup corner x y objectId) { offset := 0, acc }

structure Groups where
  id : Int32
  acc : List Placement

def moreGroups (corner : Triple) (x y : UInt8) (g : Groups) : WordReader (Groups ⊕ List Placement) := do
  let step ← plain ByteReader.smart
  if step = 0 then pure (.inr g.acc.reverse)
  else
    let id ← word (g.id.toInt + step.toNat)
    if id.toInt < 0 ∨ 0xFFFF < id.toInt then
      Reader.fail (.load (.corrupted (.objectIdRange id.toInt.toNat x y)))
    else
      let acc ← readGroup corner x y (UInt16.ofNat id.toInt.toNat) g.acc
      pure (.inl { id, acc })

theorem progress_moreGroups (corner : Triple) (x y : UInt8) : Reader.Progress (moreGroups corner x y) :=
  fun _ _ _ _ h => ((strict_plain ByteReader.strict_smart).bind _) _ _ _ h

def readAll (x y : UInt8) : WordReader (List Placement) := do
  let corner ← corner x y
  Reader.loop (moreGroups corner x y) (progress_moreGroups corner x y) { id := -1, acc := [] }

/-- The placements of the object file of the region with the given coordinates. -/
def decodeAll (file : Bytes) (x y : UInt8) : Except Failure (List Placement) := do
  let (placements, _) ← (readAll x y).run file
  pure placements

end AssetCache.Placement.Words
