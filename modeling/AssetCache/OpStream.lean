import AssetCache.ByteReader

/-! # Records of operations

A definition record is a row of operations, each an op-code and its payload. It ends at op-code 0 or
where the bytes end. What an operation means is up to the kind of record: here it is only read. -/

namespace AssetCache

/-- The operations of one kind of record: the payload reader of each op-code that it has. -/
structure OpTable (Op : Type) where
  kind : OpCodeKind
  payload? : UInt8 → Option (ByteReader Op)

namespace OpTable
variable {Op : Type} (t : OpTable Op)

/-- One more operation onto the reversed `acc`. -/
def more (acc : List Op) : ByteReader (List Op ⊕ List Op) := do
  if ← Reader.atEnd then pure (.inr acc.reverse)
  else
    let code ← ByteReader.byte
    if code = 0 then pure (.inr acc.reverse)
    else
      match t.payload? code with
      | some payload => (fun op => .inl (op :: acc)) <$> payload
      | none => Reader.fail (.unknownOpCode t.kind code)

theorem progress_more : Reader.Progress t.more := by
  intro acc s st' r h
  unfold more at h
  rw [Reader.run_bind_of_ok (Reader.run_atEnd s)] at h
  split at h
  · nomatch h
  · exact (ByteReader.strict_byte.bind _) _ _ _ h

/-- The operations of a record. -/
def read : ByteReader (List Op) := Reader.loop t.more t.progress_more []

end OpTable

open ByteReader

/-- The text that stands for an empty action. -/
def hiddenAction : String := "hidden"

/-- There are slots for five actions. -/
instance neZero_actionSlots : @NeZero Nat Zero.ofOfNat0 5 := ⟨by decide⟩

theorem actionSlot_lt (slot : Fin 5) : slot.val < 5 := slot.isLt

/-- An action, or none if it is called hidden in any case. -/
def readAction : ByteReader (Option String) := do
  let action ← text
  pure (if action.map Char.toLower = hiddenAction then none else some action)

/-- A change of one model colour into another. -/
structure Recolor where
  source : UInt16
  target : UInt16
deriving DecidableEq, Repr

/-- A counted list of colour changes. -/
def readRecolors : ByteReader (List Recolor) := do
  let count ← byte
  (do pure ⟨← u16, ← u16⟩ : ByteReader Recolor).replicate count.toNat

/-- A word, of which the greatest means none. -/
def readOptional : ByteReader (Option UInt16) := do
  let w ← u16
  pure (if w = 0xFFFF then none else some w)

end AssetCache
