import AssetCache.Reader

/-! # Readers of text

Readers that take characters and say nothing about why they fail, and the numbers that digits mean. -/

namespace AssetCache

/-- A reader of characters. -/
abbrev TextReader := Reader Char Unit

namespace TextReader

def fail {α : Type} : TextReader α := Reader.fail ()

/-- The next character if `f` holds for it. -/
def such (f : Char → Bool) : TextReader Char := Reader.satisfy () f

/-- The given character. -/
def char (c : Char) : TextReader Char := such (· = c)

theorem strict_such (f : Char → Bool) : (such f).Strict := Reader.strict_satisfy _ _

theorem strict_char (c : Char) : (char c).Strict := Reader.strict_satisfy _ _

/-- The given characters. -/
def chars : List Char → TextReader Unit
  | [] => pure ()
  | c :: cs => do
    let _ ← char c
    chars cs

theorem strict_chars (c : Char) (cs : List Char) : (chars (c :: cs)).Strict := (strict_char _).bind _

/-- `a` if it is there. -/
def ofOption {α : Type} : Option α → TextReader α
  | some a => pure a
  | none => fail

def hexDigit? (c : Char) : Option Nat :=
  if '0' ≤ c ∧ c ≤ '9' then some (c.toNat - '0'.toNat)
  else if 'a' ≤ c ∧ c ≤ 'f' then some (c.toNat - 'a'.toNat + 10)
  else if 'A' ≤ c ∧ c ≤ 'F' then some (c.toNat - 'A'.toNat + 10)
  else none

def isHexDigit (c : Char) : Bool := (hexDigit? c).isSome

/-- The number that digits of the given base mean. -/
def numberOf (base : Nat) (cs : List Char) : Nat :=
  cs.foldl (fun n c => base * n + (hexDigit? c).getD 0) 0

/-- The character whose number hexadecimal digits mean. -/
def codePoint (digits : List Char) : TextReader Char :=
  let n := numberOf 16 digits
  if n.isValidChar then pure (Char.ofNat n) else fail

end TextReader

end AssetCache
