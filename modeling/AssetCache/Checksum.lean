import AssetCache.Bytes

/-! # Cyclic redundancy checks

Both checks divide by the same polynomial. `crc32` takes the bits of a byte from the lowest up and is
the check of archives and of gzip; `crc32High` takes them from the highest down and is the check of
bzip2 blocks. -/

namespace AssetCache.Checksum

/-- `n` division steps with the lowest bit first. -/
def stepsLow : Nat → UInt32 → UInt32
  | 0, w => w
  | n + 1, w => stepsLow n (if w &&& 1 = 1 then (w >>> 1) ^^^ 0xEDB88320 else w >>> 1)

/-- `n` division steps with the highest bit first. -/
def stepsHigh : Nat → UInt32 → UInt32
  | 0, w => w
  | n + 1, w => stepsHigh n (if w ≥ 0x80000000 then (w <<< 1) ^^^ 0x04C11DB7 else w <<< 1)

/-- What eight steps make of each byte, lowest bit first. -/
def tableLow : Vector UInt32 256 := Vector.ofFn fun i => stepsLow 8 (UInt32.ofNat i)

/-- What eight steps make of each byte, highest bit first. -/
def tableHigh : Vector UInt32 256 := Vector.ofFn fun i => stepsHigh 8 (UInt32.ofNat i <<< 24)

/-- The remainder after one more byte, lowest bit first. -/
def pushLow (w : UInt32) (b : UInt8) : UInt32 := tableLow.get (w.toUInt8 ^^^ b).toFin ^^^ (w >>> 8)

/-- The remainder after one more byte, highest bit first. -/
def pushHigh (w : UInt32) (b : UInt8) : UInt32 :=
  tableHigh.get ((w >>> 24).toUInt8 ^^^ b).toFin ^^^ (w <<< 8)

/-- The check of archives and gzip streams. -/
def crc32 (bytes : Bytes) : UInt32 := bytes.foldl pushLow 0xFFFFFFFF ^^^ 0xFFFFFFFF

/-- The check of bzip2 blocks. -/
def crc32High (bytes : Bytes) : UInt32 := bytes.foldl pushHigh 0xFFFFFFFF ^^^ 0xFFFFFFFF

end AssetCache.Checksum
