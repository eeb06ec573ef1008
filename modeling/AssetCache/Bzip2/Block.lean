import AssetCache.Bzip2.Scramble
import AssetCache.Checksum
import AssetCache.PrefixCode

/-! # bzip2 blocks

A block gives the last column of the sorted rotations of its bytes, as distances into a list of the
bytes most recently seen, with runs of zero distance written as numbers of their own, in up to six
prefix codes that change every fifty symbols. From the column follow the bytes, and from those the
content, in which a byte that comes four times in a row is followed by how many more times it comes. -/

namespace AssetCache.Bzip2
open BitReader

/-- The most bytes that a block may have before its runs are written out. -/
def blockLimit : Nat := 100000

/-- A block as it is read. -/
structure Block where
  check : UInt32
  scrambled : Bool
  /-- The row of the sorted rotations that is the block itself. -/
  origin : Nat
  /-- The last bytes of the sorted rotations, in reverse. -/
  column : Bytes

/-- The bytes that occur in a block, from a map of sixteen ranges of sixteen. -/
def alphabet : BitReader (List UInt8) := do
  let ranges ← bit.replicate 16
  let used ← ranges.zipIdx.mapM fun (present, i) => do
    if present then
      let marks ← bit.replicate 16
      pure (marks.zipIdx.filterMap fun (mark, j) => if mark then some (UInt8.ofNat (16 * i + j)) else none)
    else pure []
  pure used.flatten

/-- A number below `limit` written as that many ones and a zero. -/
def unary : (limit : Nat) → BitReader Nat
  | 0 => Reader.fail .malformed
  | limit + 1 => do
    if ← bit then (· + 1) <$> unary limit else pure 0

/-- Moves the member at `i` to the front. -/
def toFront? {α : Type} (i : Nat) (xs : List α) : Option (α × List α) :=
  match xs[i]? with
  | some x => some (x, x :: xs.eraseIdx i)
  | none => none

/-- What distances into a list of recently used members name. -/
def fromDistances {α : Type} : List Nat → List α → List α
  | [], _ => []
  | i :: is, recent =>
    match toFront? i recent with
    | some (x, recent) => x :: fromDistances is recent
    | none => []

/-- One more step up or down toward the length of a code word, which never leaves 1 to 20. -/
def moreSteps (length : Nat) : BitReader (Nat ⊕ Nat) :=
  if 1 ≤ length ∧ length ≤ 20 then do
    let go ← bit
    if go then do
      let down ← bit
      pure (.inl (if down then length - 1 else length + 1))
    else pure (.inr length)
  else Reader.fail .malformed

theorem progress_moreSteps : Reader.Progress moreSteps := by
  intro length s st' r h
  unfold moreSteps at h
  split at h
  · exact (strict_bit.bind _) _ _ _ h
  · nomatch h

/-- The lengths of `count` code words, each found from the one before, onto the reversed `acc`. -/
def wordLengths : (count : Nat) → (length : Nat) → (acc : List Nat) → BitReader (List Nat)
  | 0, _, acc => pure acc.reverse
  | count + 1, length, acc => do
    let length ← Reader.loop moreSteps progress_moreSteps length
    wordLengths count length (length :: acc)

/-- The longest that the words of a code may get. No word is that long: what is not a word shows as such
only with its last bit. -/
def wordLimit : Nat := 21

/-- A prefix code for `size` symbols. -/
def code (size : Nat) : BitReader PrefixCode := do
  let first ← high 5
  let lengths ← wordLengths size first []
  pure (PrefixCode.ofLengths wordLimit lengths)

/-- Where the reading of a column stands. -/
structure ColumnState where
  /-- The code in use and the number of symbols it is still good for. -/
  current : PrefixCode
  left : Nat
  /-- The codes that come after it. -/
  upcoming : List PrefixCode
  /-- The bytes of the alphabet, the most recently seen first. -/
  recent : List UInt8
  /-- The run of the first byte of `recent` read so far, and what its next digit counts. -/
  run : Nat
  weight : Nat
  /-- The column so far in reverse, and its length. -/
  column : Bytes
  size : Nat

namespace ColumnState

/-- Writes out the run. -/
def flush (st : ColumnState) : BitReader ColumnState := do
  require (st.size + st.run ≤ blockLimit)
  let column := match st.recent with
    | b :: _ => List.replicate st.run b ++ st.column
    | [] => st.column
  pure { st with column, size := st.size + st.run, run := 0, weight := 1 }

/-- One more digit of the run. -/
def digit (st : ColumnState) (n : Nat) : BitReader ColumnState := do
  require (st.weight < 2097152)
  pure { st with run := st.run + n * st.weight, weight := 2 * st.weight }

/-- One more byte, at a distance into the recent ones. -/
def distance (st : ColumnState) (i : Nat) : BitReader ColumnState := do
  require (st.size < blockLimit)
  match toFront? i st.recent with
  | some (b, recent) => pure { st with recent, column := b :: st.column, size := st.size + 1 }
  | none => Reader.fail .malformed

/-- The state with a code that is good for at least one symbol. -/
def ready (st : ColumnState) : BitReader ColumnState :=
  match st.left, st.upcoming with
  | left + 1, _ => pure { st with left }
  | 0, c :: upcoming => pure { st with current := c, left := 49, upcoming }
  | 0, [] => Reader.fail .malformed

/-- One more symbol; `stop` is the one that ends the column. -/
def more (stop : Nat) (st : ColumnState) : BitReader (ColumnState ⊕ ColumnState) := do
  let st ← st.ready
  let symbol ← st.current.next
  if symbol ≤ 1 then .inl <$> st.digit (symbol + 1)
  else do
    let st ← st.flush
    if symbol = stop then pure (.inr st) else .inl <$> st.distance (symbol - 1)

theorem strict_ready_bind {β : Type} (st : ColumnState) (f : ColumnState → BitReader β)
    (h : ∀ st, (f st).Strict) : (st.ready >>= f).Strict := by
  intro s a r hr
  obtain ⟨st', t, ht, hf⟩ := Reader.run_bind_eq_ok.mp hr
  exact Nat.lt_of_lt_of_le (h st' _ _ _ hf) (Reader.length_le ht)

theorem progress_more (stop : Nat) : Reader.Progress (more stop) :=
  fun st _ _ _ h => st.strict_ready_bind _ (fun st => st.current.strict_next.bind _) _ _ _ h

end ColumnState

/-- Selectors beyond this many are passed over. -/
def selectorLimit : Nat := 18002

/-- A block, from its check on. -/
def Block.read : BitReader Block := do
  let check ← UInt32.ofNat <$> high 32
  let scrambled ← bit
  let origin ← high 24
  require (origin ≤ 10 + blockLimit)
  let used ← alphabet
  require (!used.isEmpty)
  let codeCount ← high 3
  require (2 ≤ codeCount && codeCount ≤ 6)
  let selectorCount ← high 15
  require (1 ≤ selectorCount)
  let selectors ← (unary codeCount).replicate selectorCount
  let codes ← (code (used.length + 2)).replicate codeCount
  let chosen := fromDistances (selectors.take selectorLimit) (List.range codeCount)
  let upcoming := chosen.filterMap (codes[·]?)
  let st ← Reader.loop (ColumnState.more (used.length + 1)) (ColumnState.progress_more _)
    { current := ⟨[], #[]⟩, left := 0, upcoming, recent := used, run := 0, weight := 1, column := [],
      size := 0 }
  require (origin < st.size)
  pure { check, scrambled, origin, column := st.column }

namespace Block

/-- The rows of a column in the order of their bytes, equal bytes in the order of the rows. -/
def sortedRows (column : Array UInt8) : Array Nat :=
  let byByte := column.zipIdx.foldr (fun (b, i) rows => rows.modify b.toNat (i :: ·))
    (Array.replicate 256 ([] : List Nat))
  byByte.toList.flatten.toArray

/-- The bytes met on `count` steps from row to row, onto the reversed `acc`. -/
def follow (column : Array UInt8) (rows : Array Nat) : (count row : Nat) → (acc : Bytes) → Bytes
  | 0, _, acc => acc.reverse
  | count + 1, row, acc => follow column rows count (rows.getD row 0) (column.getD row 0 :: acc)

/-- The bytes of a block, and the one found by going round once more. -/
def bytes (b : Block) : Bytes × UInt8 :=
  let column := b.column.reverse.toArray
  let rows := sortedRows column
  let around := follow column rows (column.size + 1) (rows.getD b.origin 0) []
  let around := if b.scrambled then unscramble around else around
  (around.take column.size, around.getD column.size 0)

/-- Writes out runs onto the reversed `acc`: `run` is how often `last` has come in a row. If the last
four bytes are a run without its count, `after` is taken for it and the answer says so. -/
def unrun (after : UInt8) : Bytes → (last : UInt8) → (run : Nat) → (acc : Bytes) → Bytes × Bool
  | [], last, run, acc =>
    if run = 4 then ((List.replicate after.toNat last ++ acc).reverse, true) else (acc.reverse, false)
  | b :: bytes, last, run, acc =>
    if run = 4 then unrun after bytes last 0 (List.replicate b.toNat last ++ acc)
    else if run ≠ 0 ∧ b = last then unrun after bytes last (run + 1) (b :: acc)
    else unrun after bytes b 1 (b :: acc)

/-- The content of a block, and whether it ran over the end of the block. -/
def content (b : Block) : Bytes × Bool :=
  let (bytes, after) := b.bytes
  unrun after bytes 0 0 []

end Block

end AssetCache.Bzip2
