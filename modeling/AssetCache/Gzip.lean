import AssetCache.Checksum
import AssetCache.Deflate

/-! # Gzip

Map files may be gzip streams or plain; the first two bytes tell. Only the first member of a stream is
read, and its length and checks must agree. -/

namespace AssetCache.Gzip

/-- A reader of the frame of a stream, whose faults all mean the same. -/
abbrev FrameReader := Reader UInt8 Unit

/-- The next `count` bytes. -/
def take (count : Nat) : FrameReader Bytes := (ByteReader.bytes count).mapError fun _ => ()

/-- A number of `count` bytes, lowest first. -/
def number (count : Nat) : FrameReader Nat :=
  (fun bytes => bytes.foldr (fun b n => b.toNat + 256 * n) 0) <$> take count

/-- The most bytes that a name or a comment may have. -/
def longestName : Nat := 65535

/-- Passes over a name or a comment and the zero byte after it. -/
def skipName : FrameReader Unit where
  run s :=
    match s.dropWhile (· != 0) with
    | _ :: r => if s.length - (r.length + 1) ≤ longestName then .ok ((), r) else .error ()
    | [] => .error ()
  suffix {s a r} h := by
    split at h
    · next x t hd =>
      split at h
      · cases h
        exact (List.suffix_cons x _).trans (hd ▸ List.dropWhile_suffix _)
      · nomatch h
    · nomatch h

/-- Passes over the header, the optional parts that its flags announce included. -/
def skipHeader : FrameReader Unit := do
  let fixed ← take 10
  let flags := fixed.getD 3 0
  if fixed.take 3 ≠ [0x1F, 0x8B, 8] ∨ flags ≥ 0x20 then Reader.fail ()
  if flags.toNat.testBit 2 then do let _ ← take (← number 2)
  if flags.toNat.testBit 3 then skipName
  if flags.toNat.testBit 4 then skipName

/-- Passes over the header and its own check, if it has one. -/
def skipCheckedHeader : FrameReader Unit where
  run s :=
    match skipHeader.run s with
    | .error e => .error e
    | .ok ((), r) =>
      if (s.getD 3 0).toNat.testBit 1 then
        match (number 2).run r with
        | .error e => .error e
        | .ok (check, r') =>
          if (Checksum.crc32 (s.take (s.length - r.length))).toNat % 65536 = check then .ok ((), r')
          else .error ()
      else .ok ((), r)
  suffix {s a r} h := by
    split at h
    · nomatch h
    · next t hp =>
      split at h
      · split at h
        · nomatch h
        · next c u hn =>
          split at h
          · cases h; exact ((number 2).suffix hn).trans (skipHeader.suffix hp)
          · nomatch h
      · cases h; exact skipHeader.suffix hp

/-- The content of the first member of a stream. -/
def member? (bytes : Bytes) : Option Bytes :=
  match skipCheckedHeader.run bytes with
  | .error _ => none
  | .ok (_, body) =>
    match Deflate.tokens.run (Bytes.bitsLow body) with
    | .error _ => none
    | .ok (tokens, bits) =>
      let trailer := body.drop (body.length - bits.length / 8)
      let out := Deflate.Token.expand tokens
      match (number 4).run trailer, (number 4).run (trailer.drop 4) with
      | .ok (check, _), .ok (length, _) =>
        if (Checksum.crc32 out).toNat = check ∧ out.length % 0x100000000 = length then some out else none
      | _, _ => none

/-- A map file as it is to be read: a gzip stream unpacked, anything else as it is. -/
def inflate (bytes : Bytes) : Except LoadError Bytes :=
  match bytes with
  | 0x1F :: 0x8B :: _ =>
    match member? bytes with
    | some out => .ok out
    | none => .error (.decompressionFailed .gzip)
  | _ => .ok bytes

end AssetCache.Gzip
