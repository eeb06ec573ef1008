import AssetCache.Bzip2.Block

/-! # bzip2 streams

The streams of a cache lack the four bytes with which a bzip2 stream starts, and are read only as far
as their content is wanted. A stream that stops short after that is whole enough; one that goes on must
go on correctly up to the next content, as far as that can be seen: a stream is looked at through
windows of 8192 bytes, and nothing behind the window in which the content ends matters. -/

namespace AssetCache.Bzip2
open BitReader

/-- What a stream consists of: blocks, and a mark with the check of them all. -/
inductive Part
  | block (block : Block)
  | stop (check : UInt32)

/-- Passes over the given bytes. -/
def expect : Bytes → BitReader Unit
  | [] => pure ()
  | b :: bs => do
    let n ← high 8
    require (n = b.toNat)
    expect bs

/-- The next part of a stream. -/
def part : BitReader Part := do
  let first ← bit
  let kind ← highAfter first.toNat 7
  if kind = 0x17 then do
    expect [0x72, 0x45, 0x38, 0x50, 0x90]
    (fun n => .stop (UInt32.ofNat n)) <$> high 32
  else if kind = 0x31 then do
    expect [0x41, 0x59, 0x26, 0x53, 0x59]
    .block <$> Block.read
  else Reader.fail .malformed

theorem strict_part : part.Strict := strict_bit.bind _

/-- The check of a stream after a block with the given check. -/
def joinCheck (combined check : UInt32) : UInt32 := ((combined <<< 1) ||| (combined >>> 31)) ^^^ check

/-- The four bytes with which every stream would start, in bits. -/
def startBits : Nat := 32

/-- The size of a window, in bits. -/
def windowBits : Nat := 8 * 8192

/-- What can be seen of the `rest` of a stream of `total` bits after its start: the rest of a window. -/
def inSight (total : Nat) (rest : List Bool) : List Bool :=
  let behind := startBits + total - rest.length
  rest.take ((windowBits - behind % windowBits) % windowBits)

/-- Whether a stream may go on like this once nothing more is wanted of it. -/
def sound (combined : UInt32) (bits : List Bool) : Bool :=
  match part.run bits with
  | .ok (.stop check, _) => check = combined
  | .ok (.block _, _) => true
  | .error .truncated => true
  | .error .malformed => false

/-- The next `wanted` bytes of content of a stream of `total` bits, put onto the reversed `acc`, which is
of earlier blocks. -/
def contentAfter (total wanted : Nat) (combined : UInt32) (bits : List Bool) (acc : List Bytes) :
    Option Bytes :=
  match _h : part.run bits with
  | .ok (.block block, rest) =>
    let (content, overrun) := block.content
    if wanted < content.length then some ((content.take wanted :: acc).reverse.flatten)
    else if overrun then
      if block.scrambled ∧ wanted = content.length then some ((content :: acc).reverse.flatten) else none
    else if Checksum.crc32High content ≠ block.check then none
    else
      let combined := joinCheck combined block.check
      if wanted = content.length then
        if sound combined (inSight total rest) then some ((content :: acc).reverse.flatten) else none
      else contentAfter total (wanted - content.length) combined rest (content :: acc)
  | _ => none
termination_by bits.length
decreasing_by exact strict_part _ _ _ _h

/-- The first `size` bytes of the content of a stream. -/
def decompress (stream : Bytes) (size : Nat) : Except LoadError Bytes :=
  if size = 0 then .ok []
  else
    let bits := Bytes.bitsHigh stream
    match contentAfter bits.length size 0 bits [] with
    | some content => .ok content
    | none => .error (.decompressionFailed .bzip2)

end AssetCache.Bzip2
