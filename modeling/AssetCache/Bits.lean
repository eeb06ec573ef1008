import AssetCache.ByteReader

/-! # Bits

Compressed streams are read bit by bit. The two formats differ in which end of a byte comes first,
so there is a list of bits and a number reader for each order. -/

namespace AssetCache

/-- Why a compressed stream cannot be read on: it stops short, or it says something impossible. -/
inductive StreamFault
  | truncated | malformed
deriving DecidableEq, Repr

namespace Bytes

/-- The bits of each byte from the lowest up. -/
def bitsLow (bytes : Bytes) : List Bool :=
  bytes.flatMap fun b => (List.range 8).map b.toNat.testBit

/-- The bits of each byte from the highest down. -/
def bitsHigh (bytes : Bytes) : List Bool :=
  bytes.flatMap fun b => (List.range 8).map fun i => b.toNat.testBit (7 - i)

end Bytes

/-- A reader of bits. -/
abbrev BitReader := Reader Bool StreamFault

namespace BitReader

/-- The next bit. -/
def bit : BitReader Bool where
  run
    | b :: r => .ok (b, r)
    | [] => .error .truncated
  suffix {s a r} h := by
    split at h
    · cases h; exact List.suffix_cons _ _
    · nomatch h

theorem strict_bit : bit.Strict := by
  intro s a r h
  cases s with
  | nil => nomatch h
  | cons => cases h; simp

/-- A number of `n` bits, lowest first. -/
def low : Nat → BitReader Nat
  | 0 => pure 0
  | n + 1 => do
    let b ← bit
    let rest ← low n
    pure (b.toNat + 2 * rest)

/-- A number of `n` bits, highest first, below the bits of `acc`. -/
def highAfter (acc : Nat) : Nat → BitReader Nat
  | 0 => pure acc
  | n + 1 => do
    let b ← bit
    highAfter (2 * acc + b.toNat) n

/-- A number of `n` bits, highest first. -/
def high (n : Nat) : BitReader Nat := highAfter 0 n

/-- Passes over the bits up to the next whole byte, of a stream that ends with one. -/
def align : BitReader Unit :=
  ⟨fun s => .ok ((), s.drop (s.length % 8)), by rintro s a r ⟨⟩; exact List.drop_suffix _ _⟩

/-- Fails unless `ok`. -/
def require (ok : Bool) : BitReader Unit := if ok then pure () else Reader.fail .malformed

end BitReader

end AssetCache
