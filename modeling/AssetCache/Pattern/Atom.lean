import AssetCache.Characters
import AssetCache.TextReader

/-! # The smallest parts of patterns

A pattern is read in a mode, which says how its characters are meant. The readers here take a character or
what a backslash makes of it. Not every mode allows everything: cases and kinds of characters are known
of bytes only, and a pattern of bytes may not stand for a part of a character. -/

namespace AssetCache.Pattern
open TextReader

/-- How the characters of a pattern are meant. -/
structure Mode where
  /-- Letters stand for their other case too. -/
  anyCase : Bool := false
  /-- A pattern stands for characters, and not for bytes. -/
  unicode : Bool := true
  /-- Blanks and comments between the parts of a pattern stand for nothing. -/
  spaced : Bool := false
deriving DecidableEq, Repr

/-- A blank or a comment, which goes up to the end of its line. -/
def filler : TextReader Unit :=
  ((fun _ => ()) <$> such Characters.isBlank).orElse do
    let _ ← char '#'
    let _ ← Reader.takeWhile (· ≠ '\n')

theorem strict_filler : filler.Strict := ((strict_such _).map _).orElse ((strict_char _).bind _)

/-- The blanks and comments that stand for nothing. -/
def blanks (m : Mode) : TextReader Unit :=
  if m.spaced then (fun _ => ()) <$> Reader.many filler strict_filler else pure ()

/-- A part of a pattern that has no parts of its own. -/
inductive Atom
  /-- A character, which is a byte if its number is written with two digits. -/
  | char (c : Char) (byte : Bool)
  | any
  /-- A digit, a blank or a character of words, or any character but those. -/
  | kind (negated : Bool)
  /-- The start or the end of a line or of the text. -/
  | edge
  /-- The start or the end of a word, or any place but those. -/
  | wordEdge
deriving DecidableEq, Repr

namespace Atom

/-- Whether an atom may stand in a pattern. -/
def isUsable (m : Mode) : Atom → Bool
  | char c byte => if m.unicode then !m.anyCase else !byte || c.toNat < 0x80
  | any => m.unicode
  | kind negated => !m.unicode && !negated
  | edge => true
  | wordEdge => !m.unicode

/-- Whether an atom may be a member of a set. -/
def isMember (m : Mode) : Atom → Bool
  | char c _ => if m.unicode then !m.anyCase else c.toNat < 0x80
  | kind negated => !m.unicode && !negated
  | _ => false

/-- A character by the digits of its number. -/
def numbered (m : Mode) (count : Nat) : TextReader Atom := do
  let digits ← (do blanks m; such isHexDigit : TextReader Char).replicate count
  pure (.char (← codePoint digits) (count = 2))

/-- What a backslash makes of the characters after it. -/
def escape (m : Mode) : TextReader Atom := do
  let _ ← TextReader.char '\\'
  match ← such fun _ => true with
  | 'x' => numbered m 2
  | 'u' => numbered m 4
  | 'U' => numbered m 8
  | 'd' | 's' | 'w' => pure (.kind false)
  | 'D' | 'S' | 'W' => pure (.kind true)
  | 'A' | 'z' => pure .edge
  | 'b' | 'B' | '<' | '>' => pure .wordEdge
  | 'a' => pure (.char '\x07' false)
  | 't' => pure (.char '\t' false)
  | 'n' => pure (.char '\n' false)
  | 'v' => pure (.char '\x0b' false)
  | 'f' => pure (.char '\x0c' false)
  | 'r' => pure (.char '\r' false)
  | c => if c.toNat < 0x80 && !c.isAlphanum then pure (.char c false) else fail

theorem strict_escape (m : Mode) : (escape m).Strict := (strict_char _).bind _

/-- An atom inside of a set, where most characters stand for themselves. -/
def inner (m : Mode) : TextReader Atom := (escape m).orElse ((.char · false) <$> such (· ≠ '\\'))

theorem strict_inner (m : Mode) : (inner m).Strict := (strict_escape m).orElse ((strict_such _).map _)

/-- An atom outside of sets. -/
def outer (m : Mode) : TextReader Atom :=
  (escape m).orElse do
    match ← such (· ≠ '\\') with
    | '.' => pure .any
    | '^' | '$' => pure .edge
    | c => pure (.char c false)

theorem strict_outer (m : Mode) : (outer m).Strict := (strict_escape m).orElse ((strict_such _).bind _)

end Atom

/-- The depth of parts side by side, which lie in one more part unless there is only one of them. -/
def nested : List Nat → Nat
  | [] => 0
  | [depth] => depth
  | depths => depths.foldl max 0 + 1

end AssetCache.Pattern
