import AssetCache.Bits

/-! # Canonical prefix codes

A canonical code is fixed by the length of each symbol's code word: words count upward through the
symbols, shorter words first. Reading a word needs only how many words there are of each length. -/

namespace AssetCache

/-- A canonical code: the number of words of length 1, 2, … and the symbols in word order. -/
structure PrefixCode where
  counts : List Nat
  symbols : Array Nat

namespace PrefixCode

/-- The code in which symbol `i` has a word of length `lengths[i]`, or none if that is 0. Lengths
above `longest` are not looked at. -/
def ofLengths (longest : Nat) (lengths : List Nat) : PrefixCode where
  counts := (List.range longest).map fun n => lengths.count (n + 1)
  symbols := ((List.range longest).flatMap fun n =>
    lengths.zipIdx.filterMap fun (length, symbol) => if length = n + 1 then some symbol else none).toArray

/-- The number of words. -/
def size (c : PrefixCode) : Nat := c.counts.foldl (· + ·) 0

/-- How many words of the greatest length the words take up. -/
def weight (c : PrefixCode) : Nat := c.counts.foldl (fun w n => 2 * w + n) 0

/-- Whether every bit string starts with exactly one word. -/
def isFull (c : PrefixCode) : Bool := c.weight = 1 <<< c.counts.length

/-- Reads on in a word. `first` is the least word of the next length less one bit, `passed` the
number of shorter words, and `word` the bits so far. -/
def walk (symbols : Array Nat) : (counts : List Nat) → (first passed word : Nat) → BitReader Nat
  | [], _, _, _ => Reader.fail .malformed
  | n :: counts, first, passed, word => do
    let b ← BitReader.bit
    let word := 2 * word + b.toNat
    if word < 2 * first + n then
      match symbols[passed + (word - 2 * first)]? with
      | some symbol => pure symbol
      | none => Reader.fail .malformed
    else walk symbols counts (2 * first + n) (passed + n) word

/-- The next symbol. -/
def next (c : PrefixCode) : BitReader Nat := walk c.symbols c.counts 0 0 0

theorem strict_next (c : PrefixCode) : c.next.Strict := by
  unfold next
  cases c.counts with
  | nil => exact Reader.Strict.fail _
  | cons n counts => exact BitReader.strict_bit.bind _

end PrefixCode

end AssetCache
