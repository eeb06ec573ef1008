import AssetCache.PrefixCode

/-! # Deflate

A deflate stream is a row of blocks that spell tokens: a byte, or a copy of bytes already put out.
`tokens` reads the stream, `Token.expand` turns tokens into bytes. What a copy takes from before the
first byte is zero. -/

namespace AssetCache.Deflate
open BitReader

/-- A byte, or `length` bytes again from `distance` before. -/
inductive Token
  | literal (b : UInt8)
  | copy (length distance : Nat)
deriving DecidableEq, Repr

namespace Token

/-- The byte `distance` before the end, which is zero beyond the start. -/
def byteBack (distance : Nat) (out : Array UInt8) : UInt8 :=
  if distance ≤ out.size then out.getD (out.size - distance) 0 else 0

/-- Puts out `length` bytes again, from `distance` before the end. -/
def repeatFrom (distance : Nat) : Nat → Array UInt8 → Array UInt8
  | 0, out => out
  | length + 1, out => repeatFrom distance length (out.push (byteBack distance out))

/-- Puts out what a token spells. -/
def write (out : Array UInt8) : Token → Array UInt8
  | literal b => out.push b
  | copy length distance => repeatFrom distance length out

/-- What tokens put out. -/
def expand (ts : List Token) : Bytes := (ts.foldl write #[]).toList

end Token

/-- The least length and the number of extra bits of each length symbol, from 257 on. -/
def lengthSteps : Array (Nat × Nat) :=
  #[(3, 0), (4, 0), (5, 0), (6, 0), (7, 0), (8, 0), (9, 0), (10, 0), (11, 1), (13, 1), (15, 1), (17, 1),
    (19, 2), (23, 2), (27, 2), (31, 2), (35, 3), (43, 3), (51, 3), (59, 3), (67, 4), (83, 4), (99, 4),
    (115, 4), (131, 5), (163, 5), (195, 5), (227, 5), (258, 0)]

/-- The least distance and the number of extra bits of each distance symbol. -/
def distanceSteps : Array (Nat × Nat) :=
  #[(1, 0), (2, 0), (3, 0), (4, 0), (5, 1), (7, 1), (9, 2), (13, 2), (17, 3), (25, 3), (33, 4), (49, 4),
    (65, 5), (97, 5), (129, 6), (193, 6), (257, 7), (385, 7), (513, 8), (769, 8), (1025, 9), (1537, 9),
    (2049, 10), (3073, 10), (4097, 11), (6145, 11), (8193, 12), (12289, 12), (16385, 13), (24577, 13)]

/-- A number that a symbol gives up to extra bits. -/
def stepped (steps : Array (Nat × Nat)) (symbol : Nat) : BitReader Nat :=
  match steps[symbol]? with
  | some (least, extra) => (least + ·) <$> low extra
  | none => Reader.fail .malformed

/-- Whether a code may be used for bytes or distances: it leaves no word undecided, or has a single
word, of one bit, or none at all. -/
def usable (c : PrefixCode) : Bool := c.isFull || c.size ≤ 1 && c.size = c.counts.headD 0

/-- The code of a block for bytes and lengths, and its code for distances. -/
structure Codes where
  literals : PrefixCode
  distances : PrefixCode

/-- The codes of a block that brings none. -/
def Codes.fixed : Codes where
  literals := PrefixCode.ofLengths 15
    (List.replicate 144 8 ++ List.replicate 112 9 ++ List.replicate 24 7 ++ List.replicate 8 8)
  distances := PrefixCode.ofLengths 15 (List.replicate 30 5)

/-- The next token, or none at the end of the block. -/
def Codes.token (c : Codes) : BitReader (Option Token) := do
  let symbol ← c.literals.next
  if symbol < 256 then pure (some (.literal (UInt8.ofNat symbol)))
  else if symbol = 256 then pure none
  else do
    let length ← stepped lengthSteps (symbol - 257)
    let code ← c.distances.next
    let distance ← stepped distanceSteps code
    pure (some (.copy length distance))

/-- One more token onto the reversed `acc`. -/
def Codes.more (c : Codes) (acc : List Token) : BitReader (List Token ⊕ List Token) :=
  (fun | some t => .inl (t :: acc) | none => .inr acc) <$> c.token

theorem Codes.progress_more (c : Codes) : Reader.Progress c.more :=
  fun _ _ _ _ h => ((c.literals.strict_next.bind _).map _) _ _ _ h

/-- The tokens of a block onto the reversed `acc`. -/
def Codes.block (c : Codes) (acc : List Token) : BitReader (List Token) :=
  Reader.loop c.more c.progress_more acc

/-- The bytes of a block that is not compressed, onto the reversed `acc`. -/
def stored (acc : List Token) : BitReader (List Token) := do
  align
  let length ← low 16
  let complement ← low 16
  require (length + complement = 0xFFFF)
  let bytes ← (low 8).replicate length
  pure ((bytes.map fun n => Token.literal (UInt8.ofNat n)).reverse ++ acc)

/-- The order in which a block gives the lengths of its length code. -/
def lengthCodeOrder : List Nat := [16, 17, 18, 0, 8, 7, 9, 6, 10, 5, 11, 4, 12, 3, 13, 2, 14, 1, 15]

/-- Some more word lengths onto the reversed `acc`, of which there are to be `total`. -/
def moreLengths (code : PrefixCode) (total : Nat) (acc : List Nat) :
    BitReader (List Nat ⊕ List Nat) := do
  if acc.length = total then pure (.inr acc.reverse)
  else
    let symbol ← code.next
    if symbol < 16 then pure (.inl (symbol :: acc))
    else
      let (length, count) ←
        if symbol = 16 then
          match acc with
          | previous :: _ => do pure (previous, 3 + (← low 2))
          | [] => Reader.fail .malformed
        else if symbol = 17 then do pure (0, 3 + (← low 3))
        else do pure (0, 11 + (← low 7))
      require (acc.length + count ≤ total)
      pure (.inl (List.replicate count length ++ acc))

theorem progress_moreLengths (code : PrefixCode) (total : Nat) :
    Reader.Progress (moreLengths code total) := by
  intro acc s st' r h
  unfold moreLengths at h
  split at h
  · cases h
  · exact (code.strict_next.bind _) _ _ _ h

/-- The codes that a block brings. -/
def Codes.read : BitReader Codes := do
  let literalCount ← (257 + ·) <$> low 5
  let distanceCount ← (1 + ·) <$> low 5
  let lengthCount ← (4 + ·) <$> low 4
  require (literalCount ≤ 286 && distanceCount ≤ 30)
  let given ← (low 3).replicate lengthCount
  let lengthOf := lengthCodeOrder.zip given
  let code := PrefixCode.ofLengths 7 ((List.range 19).map fun symbol => (lengthOf.lookup symbol).getD 0)
  require code.isFull
  let lengths ← Reader.loop (moreLengths code (literalCount + distanceCount))
    (progress_moreLengths code _) []
  let literals := PrefixCode.ofLengths 15 (lengths.take literalCount)
  let distances := PrefixCode.ofLengths 15 (lengths.drop literalCount)
  require (usable literals && usable distances)
  pure ⟨literals, distances⟩

/-- One more block onto the reversed `acc`; the last one says so. -/
def moreBlocks (acc : List Token) : BitReader (List Token ⊕ List Token) := do
  let last ← bit
  let kind ← low 2
  let acc ←
    if kind = 0 then stored acc
    else if kind = 1 then Codes.fixed.block acc
    else if kind = 2 then do (← Codes.read).block acc
    else Reader.fail .malformed
  pure (if last then .inr acc.reverse else .inl acc)

theorem progress_moreBlocks : Reader.Progress moreBlocks :=
  fun _ _ _ _ h => (strict_bit.bind _) _ _ _ h

/-- The tokens of a stream. -/
def tokens : BitReader (List Token) := Reader.loop moreBlocks progress_moreBlocks []

end AssetCache.Deflate
