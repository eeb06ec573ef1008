import AssetCache.Cursor.Session

/-! # A cursor in words

The same requests over bytes that stay where they are and a position that is a word of 64 bits. The position is
written by the operations themselves, also by those that fail later on. A sum or a difference that its word does not
hold is an overflow, and so is a look at bytes that are not there: there is no answer then. -/

namespace AssetCache.Cursor.Words
open LoadError

/-- A run of bytes whose length, and one more, is a word. -/
structure Buffer where
  bytes : Bytes
  length_lt : bytes.length < 0xFFFFFFFFFFFFFFFF

/-- How many bytes there are. -/
def Buffer.length (b : Buffer) : UInt64 := UInt64.ofNat b.bytes.length

/-- A computation that moves a position. It may fail, and it may also overflow. -/
abbrev Step := ExceptT LoadError (StateT UInt64 Option)

def overflow {α : Type} : Step α := ExceptT.mk fun _ => none

/-- The word that is a number. -/
def word (n : Nat) : Step { w : UInt64 // w.toNat = n } :=
  if h : n < 0x10000000000000000 then pure ⟨UInt64.ofNat n, UInt64.toNat_ofNat_of_lt' h⟩ else overflow

def plus (a b : UInt64) : Step { w : UInt64 // w.toNat = a.toNat + b.toNat } := word (a.toNat + b.toNat)

theorem toNat_sub_add_toNat {a b : UInt64} (h : b ≤ a) : (a - b).toNat + b.toNat = a.toNat := by
  rw [UInt64.toNat_sub_of_le _ _ h]
  exact Nat.sub_add_cancel (UInt64.le_iff_toNat_le.1 h)

/-- What is left of `a` without `b`. -/
def minus (a b : UInt64) : Step { w : UInt64 // w.toNat + b.toNat = a.toNat } :=
  if h : b ≤ a then pure ⟨a - b, toNat_sub_add_toNat h⟩ else overflow

variable (b : Buffer)

/-- The bytes from one position up to another one. -/
def slice (first stop : UInt64) : Step Bytes :=
  if first ≤ stop ∧ stop ≤ b.length then
    pure ((b.bytes.drop first.toNat).take (stop.toNat - first.toNat))
  else overflow

/-- The next `count` bytes. -/
def take (count : UInt64) : Step Bytes := do
  let left ← minus b.length (← get)
  if left.val < count then throw (endOfData count.toNat left.val.toNat)
  else
    let stop ← plus (← get) count
    let bytes ← slice b (← get) stop.val
    set stop.val
    pure bytes

/-- What `f` makes of the next `count` bytes. -/
def decode {α : Type} (count : UInt64) (f : Bytes → Option α) : Step α := do
  match f (← take b count) with
  | some a => pure a
  | none => overflow

def ofOne? : Bytes → Option UInt8
  | [x] => some x
  | _ => none

def ofTwo? : Bytes → Option UInt16
  | [x, y] => some (Bytes.toU16 x y)
  | _ => none

/-- Three bytes are put together in a word of 32 bits. -/
def ofThree? : Bytes → Option Nat
  | [x, y, z] => some (x.toUInt32 <<< 16 ||| y.toUInt32 <<< 8 ||| z.toUInt32).toNat
  | _ => none

def ofFour? : Bytes → Option UInt32
  | [w, x, y, z] => some (Bytes.toU32 w x y z)
  | _ => none

def u8 : Step UInt8 := decode b 1 ofOne?

def u16 : Step UInt16 := decode b 2 ofTwo?

/-- A number in one byte, past which the position is moved here, or else in two. -/
def smart : Step UInt16 := do
  match b.bytes[(← get).toNat]? with
  | none => throw (endOfData 1 0)
  | some first =>
    if first < 0x80 then
      let next ← plus (← get) 1
      set next.val
      pure first.toUInt16
    else
      let w ← u16 b
      if 0x8000 ≤ w then pure (w - 0x8000) else overflow

/-- A text, whose end is looked for and passed here. -/
def text : Step String := do
  let rest ← slice b (← get) b.length
  let left ← word rest.length
  let needed ← plus left.val 1
  match rest.idxOf? Bytes.lineEnd with
  | none => throw (endOfData needed.val.toNat left.val.toNat)
  | some i =>
    let stop ← word i
    let taken ← plus stop.val 1
    let next ← plus (← get) taken.val
    set next.val
    pure (Bytes.toText (rest.take i))

def skip (count : UInt64) : Step Unit := (fun _ => ()) <$> take b count

/-- A value of a type. -/
def value : FieldType → Step Field
  | .u8 => .u8 <$> u8 b
  | .i8 => .i8 <$> UInt8.toInt8 <$> u8 b
  | .u16 => .u16 <$> u16 b
  | .i16 => .i16 <$> UInt16.toInt16 <$> u16 b
  | .u24 => .u24 <$> decode b 3 ofThree?
  | .u32 => .u32 <$> decode b 4 ofFour?
  | .smart => .smart <$> smart b
  | .text => .text <$> text b
  | .block count => do
    let count ← word count
    .block <$> take b count.val

/-- The answer to a request. -/
def perform : CursorRequest → Step (Option Field)
  | .value type => some <$> value b type
  | .skip count => do
    let count ← word count
    (fun _ => none) <$> skip b count.val

/-- The answers to a row of requests, and the position after all of them. -/
def performAll : List CursorRequest → UInt64 → Option (List CursorAnswer × UInt64)
  | [], pos => some ([], pos)
  | q :: qs, pos => do
    let (answer, pos) ← (perform b q).run.run pos
    let (answers, pos) ← performAll qs pos
    pure (answer :: answers, pos)

end AssetCache.Cursor.Words
