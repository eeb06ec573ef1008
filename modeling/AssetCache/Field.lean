import AssetCache.ByteReader

/-! # Fields

A field is one value as it is stored. The type of a field, together with what is written, tells where it
ends. -/

namespace AssetCache

/-- The ways in which a value is stored. -/
inductive FieldType
  | u8 | i8 | u16 | i16 | u24 | u32 | smart | text
  | block (length : Nat)
deriving DecidableEq, Repr

/-- A value that can be stored. -/
inductive Field
  | u8 (b : UInt8)
  | i8 (b : Int8)
  | u16 (w : UInt16)
  | i16 (w : Int16)
  | u24 (n : Nat)
  | u32 (w : UInt32)
  | smart (w : UInt16)
  | text (t : String)
  | block (bytes : Bytes)
deriving DecidableEq, Repr

/-- Reads a field of a type. -/
def FieldType.read : FieldType → ByteReader Field
  | u8 => .u8 <$> ByteReader.byte
  | i8 => .i8 <$> ByteReader.i8
  | u16 => .u16 <$> ByteReader.u16
  | i16 => .i16 <$> ByteReader.i16
  | u24 => .u24 <$> ByteReader.u24
  | u32 => .u32 <$> ByteReader.u32
  | smart => .smart <$> ByteReader.smart
  | text => .text <$> ByteReader.text
  | block length => .block <$> ByteReader.bytes length

namespace Field

def type : Field → FieldType
  | u8 _ => .u8
  | i8 _ => .i8
  | u16 _ => .u16
  | i16 _ => .i16
  | u24 _ => .u24
  | u32 _ => .u32
  | smart _ => .smart
  | text _ => .text
  | block bytes => .block bytes.length

/-- Whether there is room for the value. -/
def Fits : Field → Prop
  | u24 n => n < 0x1000000
  | smart w => w < 0x8000
  | text t => Bytes.IsLine t
  | _ => True

instance : DecidablePred Fits
  | u24 n => inferInstanceAs (Decidable (n < 0x1000000))
  | smart w => inferInstanceAs (Decidable (w < 0x8000))
  | text t => inferInstanceAs (Decidable (Bytes.IsLine t))
  | u8 _ | i8 _ | u16 _ | i16 _ | u32 _ | block _ => inferInstanceAs (Decidable True)

/-- The bytes of a field. -/
def encode : Field → Bytes
  | u8 b => [b]
  | i8 b => [b.toUInt8]
  | u16 w => Bytes.ofU16 w
  | i16 w => Bytes.ofU16 w.toUInt16
  | u24 n => Bytes.ofU24 n
  | u32 w => Bytes.ofU32 w
  | smart w => Bytes.ofSmart w
  | text t => Bytes.ofLine t
  | block bytes => bytes

end Field

end AssetCache
