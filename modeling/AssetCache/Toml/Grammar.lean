import AssetCache.TextReader
import AssetCache.Toml.Value

/-! # The text of a TOML document

Readers for the parts of a document, from characters up to lines, and `parse?` for the whole. A part
that does not fit fails; nothing is said about why. -/

namespace AssetCache.Toml

namespace Grammar
open Reader hiding fail
open TextReader

/-- The deepest that arrays and inline tables may lie in one another, and the most parts of a key. -/
def depthLimit : Nat := 79

/-! ## Blanks, comments and line ends -/

def isBlank (c : Char) : Bool := c = ' ' || c = '\t'

/-- Whether a character may stand in a comment; quoted texts without escapes exclude their quote too. -/
def isPlain (c : Char) : Bool := c = '\t' || (c.toNat ≥ 0x20 && c.toNat ≠ 0x7F)

def blanks : TextReader Unit := (fun _ => ()) <$> takeWhile isBlank

/-- A line end, with or without a carriage return. -/
def newline : TextReader Char := ((do let _ ← char '\r'; char '\n') : TextReader Char).orElse (char '\n')

theorem strict_newline : newline.Strict := ((strict_char _).bind _).orElse (strict_char _)

def comment : TextReader Unit := do
  let _ ← char '#'
  let _ ← takeWhile isPlain

theorem strict_comment : comment.Strict := (strict_char _).bind _

/-- The end of a line or of the text. -/
def lineEnd : TextReader Unit :=
  ((fun _ => ()) <$> newline).orElse (do if ← atEnd then pure () else fail)

/-- What may follow on a line that has said something. -/
def restOfLine : TextReader Unit := do
  blanks
  let _ ← optional comment
  lineEnd

/-- A blank, a comment or a line end. -/
def filler : TextReader Unit :=
  ((fun _ => ()) <$> such isBlank).orElse (comment.orElse ((fun _ => ()) <$> newline))

theorem strict_filler : filler.Strict :=
  ((strict_such _).map _).orElse (strict_comment.orElse (strict_newline.map _))

/-- Blanks, comments and line ends, as they may stand between the members of an array. -/
def fillers : TextReader Unit := (fun _ => ()) <$> many filler strict_filler

/-! ## Texts -/

/-- A character written with a backslash. -/
def escape : TextReader Char := do
  let _ ← char '\\'
  let c ← such fun _ => true
  match c with
  | 'b' => pure '\x08'
  | 't' => pure '\t'
  | 'n' => pure '\n'
  | 'f' => pure '\x0c'
  | 'r' => pure '\r'
  | '"' => pure '"'
  | '\\' => pure '\\'
  | 'u' => codePoint (← (such isHexDigit).replicate 4)
  | 'U' => codePoint (← (such isHexDigit).replicate 8)
  | _ => fail

theorem strict_escape : escape.Strict := (strict_char _).bind _

/-- A character that stands for itself between double quotes. -/
def unescaped : TextReader Char := such fun c => isPlain c && c ≠ '"' && c ≠ '\\'

/-- A character between double quotes. -/
def basicChar : TextReader Char := unescaped.orElse escape

theorem strict_basicChar : basicChar.Strict := (strict_such _).orElse strict_escape

/-- A text between double quotes. -/
def basicText : TextReader String := do
  let _ ← char '"'
  let cs ← many basicChar strict_basicChar
  let _ ← char '"'
  pure (String.ofList cs)

/-- A text between single quotes, where nothing is escaped. -/
def literalText : TextReader String := do
  let _ ← char '\''
  let cs ← takeWhile fun c => isPlain c && c ≠ '\''
  let _ ← char '\''
  pure (String.ofList cs)

/-- A backslash at the end of a line, which joins it with the next one that is not blank. -/
def joint : TextReader (List Char) := do
  let _ ← char '\\'
  blanks
  let _ ← newline
  let _ ← many ((such isBlank).orElse newline) ((strict_such _).orElse strict_newline)
  pure []

/-- One or two quotes inside a text between three of them. -/
def innerQuotes (quote : Char) : TextReader (List Char) := do
  let q ← char quote
  let qs ← takeWhile (· = quote)
  if qs.length ≤ 1 then pure (q :: qs) else fail

/-- The quotes that end a text between three of them; two more may belong to the text. -/
def closingQuotes (quote : Char) : TextReader (List Char) := do
  let qs ← takeWhile (· = quote)
  if 3 ≤ qs.length ∧ qs.length ≤ 5 then pure (qs.drop 3) else fail

theorem strict_innerQuotes (quote : Char) : (innerQuotes quote).Strict := (strict_char _).bind _

/-- A piece of a text between three double quotes. -/
def basicPiece : TextReader (List Char) :=
  ((fun c => [c]) <$> unescaped).orElse (joint.orElse (((fun c => [c]) <$> escape).orElse
    (((fun c => [c]) <$> newline).orElse (innerQuotes '"'))))

theorem strict_basicPiece : basicPiece.Strict :=
  ((strict_such _).map _).orElse (((strict_char _).bind _).orElse ((strict_escape.map _).orElse
    ((strict_newline.map _).orElse (strict_innerQuotes _))))

/-- A piece of a text between three single quotes. -/
def literalPiece : TextReader (List Char) :=
  ((fun c => [c]) <$> such fun c => isPlain c && c ≠ '\'').orElse
    (((fun c => [c]) <$> newline).orElse (innerQuotes '\''))

theorem strict_literalPiece : literalPiece.Strict :=
  ((strict_such _).map _).orElse ((strict_newline.map _).orElse (strict_innerQuotes _))

/-- A text over several lines between three quotes; a line end right at its start does not count. -/
def longText (quote : Char) (piece : TextReader (List Char)) (h : piece.Strict) : TextReader String := do
  chars [quote, quote, quote]
  let _ ← optional newline
  let pieces ← many piece h
  let last ← closingQuotes quote
  pure (String.ofList (pieces.flatten ++ last))

/-- A quoted text. -/
def quoted : TextReader String :=
  (longText '"' basicPiece strict_basicPiece).orElse (basicText.orElse
    ((longText '\'' literalPiece strict_literalPiece).orElse literalText))

/-! ## Keys -/

def isBareKey (c : Char) : Bool := c.isAlphanum || c = '-' || c = '_'

/-- One part of a key. -/
def keyPart : TextReader String :=
  basicText.orElse (literalText.orElse do
    let c ← such isBareKey
    let cs ← takeWhile isBareKey
    pure (String.ofList (c :: cs)))

/-- A dot and one more part of a key. -/
def dottedPart : TextReader String := do
  blanks
  let _ ← char '.'
  blanks
  keyPart

theorem strict_dottedPart : dottedPart.Strict := Reader.Strict.bind_right _ fun _ => (strict_char _).bind _

/-- A key: the parts that come before the last, and the last one. -/
def key : TextReader (List String × String) := do
  blanks
  let first ← keyPart
  let others ← many dottedPart strict_dottedPart
  blanks
  if depthLimit < others.length + 1 then fail
  else pure ((first :: others).dropLast, (first :: others).getLastD first)

/-! ## Numbers and times -/

/-- Digits for which `f` holds, with single underscores between them. -/
def digits (f : Char → Bool) : TextReader (List Char) := do
  let c ← such f
  let cs ← many (do let _ ← optional (char '_'); such f)
    (Reader.Strict.bind_right _ fun _ => strict_such _)
  pure (c :: cs)

def sign : TextReader (Option Char) := optional (such fun c => c = '+' || c = '-')

/-- Decimal digits that do not start with a needless zero. -/
def decimalDigits : TextReader (List Char) :=
  ((fun c => [c]) <$> char '0').orElse (digits Char.isDigit)

/-- The number of digits after a zero and a letter that gives their base. -/
def based (letter : Char) (base : Nat) : TextReader Int := do
  chars ['0', letter]
  let cs ← digits fun c => (hexDigit? c).any (· < base)
  pure (numberOf base cs)

def decimal : TextReader Int := do
  let s ← sign
  let n : Int := numberOf 10 (← decimalDigits)
  pure (if s = some '-' then -n else n)

/-- A whole number of 64 bits with its sign. -/
def integer : TextReader Int := do
  let n ← (based 'x' 16).orElse ((based 'o' 8).orElse ((based 'b' 2).orElse decimal))
  if -0x8000000000000000 ≤ n ∧ n < 0x8000000000000000 then pure n else fail

/-- Whether `n` times ten to the power of `e` rounds to a double precision number, not beyond all. -/
def isFinite (n : Nat) (e : Int) : Bool :=
  if n = 0 then true
  else
    let size := (Nat.toDigits 10 n).length + e
    if size < 300 then true
    else if 320 < size then false
    else
      let bound := 1 <<< 1024 - 1 <<< 970
      if 0 ≤ e then n * Nat.pow 10 e.toNat < bound else n < bound * Nat.pow 10 (-e).toNat

def fraction : TextReader (List Char) := do
  let _ ← char '.'
  digits Char.isDigit

def exponent : TextReader Int := do
  let _ ← such fun c => c = 'e' || c = 'E'
  let s ← sign
  let n : Int := numberOf 10 (← digits Char.isDigit)
  pure (if s = some '-' then -n else n)

/-- A number with a fraction or an exponent; only a negative one may be too great. -/
def finiteFloat : TextReader Unit := do
  let s ← sign
  let whole ← decimalDigits
  let places ← optional fraction
  let shift ← if places.isSome then optional exponent else some <$> exponent
  let n := numberOf 10 (whole ++ places.getD [])
  let e : Int := shift.getD 0 - ((places.getD []).length : Int)
  if s = some '-' ∨ isFinite n e then pure () else fail

def specialFloat : TextReader Unit := do
  let _ ← sign
  (chars ['i', 'n', 'f']).orElse (chars ['n', 'a', 'n'])

/-- A number of `count` decimal digits between two bounds. -/
def ranged (count least most : Nat) : TextReader Nat := do
  let n := numberOf 10 (← (such Char.isDigit).replicate count)
  if least ≤ n ∧ n ≤ most then pure n else fail

def daysOf (year month : Nat) : Nat :=
  if month = 2 then
    if (year % 4 = 0 ∧ year % 100 ≠ 0) ∨ year % 400 = 0 then 29 else 28
  else if month = 4 ∨ month = 6 ∨ month = 9 ∨ month = 11 then 30
  else 31

def date : TextReader Unit := do
  let year ← ranged 4 0 9999
  let _ ← char '-'
  let month ← ranged 2 1 12
  let _ ← char '-'
  let _ ← ranged 2 1 (daysOf year month)

def time : TextReader Unit := do
  let _ ← ranged 2 0 23
  let _ ← char ':'
  let _ ← ranged 2 0 59
  let _ ← char ':'
  let _ ← ranged 2 0 60
  let _ ← optional do
    let _ ← char '.'
    let _ ← such Char.isDigit
    takeWhile Char.isDigit

def zone : TextReader Unit :=
  ((fun _ => ()) <$> such fun c => c = 'Z' || c = 'z').orElse do
    let _ ← such fun c => c = '+' || c = '-'
    let _ ← ranged 2 0 23
    let _ ← char ':'
    let _ ← ranged 2 0 59

/-- A date, a time, or both. -/
def dateTime : TextReader Unit :=
  (do
    date
    let _ ← optional do
      let _ ← such fun c => c = 'T' || c = 't' || c = ' '
      time
      optional zone).orElse time

/-! ## Values -/

/-- A value that holds no others. -/
def scalar : TextReader Value :=
  (.string <$> quoted).orElse <|
  ((fun _ => .boolean true) <$> chars ['t', 'r', 'u', 'e']).orElse <|
  ((fun _ => .boolean false) <$> chars ['f', 'a', 'l', 's', 'e']).orElse <|
  ((fun cs => .dateTime (String.ofList cs)) <$> taken dateTime).orElse <|
  ((fun cs => .float (String.ofList cs)) <$> taken (finiteFloat.orElse specialFloat)).orElse <|
  .integer <$> integer

/-- Whether a comma comes next, and not the closing bracket. -/
def goesOn (closing : Char) : TextReader Bool :=
  ((fun _ => true) <$> char ',').orElse ((fun _ => false) <$> char closing)

theorem strict_goesOn (closing : Char) : (goesOn closing).Strict :=
  ((strict_char _).map _).orElse ((strict_char _).map _)

/-- One more member of an array onto the reversed `acc`; a comma may come after the last one. -/
def moreMembers (member : TextReader Value) (acc : List Value) :
    TextReader (List Value ⊕ List Value) := do
  fillers
  ((fun _ => Sum.inr acc.reverse) <$> char ']').orElse do
    let v ← member
    fillers
    let more ← goesOn ']'
    pure (if more then .inl (v :: acc) else .inr (v :: acc).reverse)

theorem progress_moreMembers (member : TextReader Value) : Reader.Progress (moreMembers member) :=
  fun _ _ _ _ h => (Reader.Strict.bind_right _ fun _ => ((strict_char _).map _).orElse
    (Reader.Strict.bind_right _ fun _ => Reader.Strict.bind_right _ fun _ => (strict_goesOn _).bind _))
    _ _ _ h

/-- A key and its value. -/
def pair (member : TextReader Value) : TextReader (List String × String × Value) := do
  let (dots, key) ← key
  let _ ← char '='
  blanks
  let v ← member
  pure (dots, key, v)

/-- One more key and its value onto the reversed `acc`. -/
def morePairs (member : TextReader Value) (acc : List (List String × String × Value)) :
    TextReader (List (List String × String × Value) ⊕ List (List String × String × Value)) := do
  let p ← pair member
  blanks
  let more ← goesOn '}'
  pure (if more then .inl (p :: acc) else .inr (p :: acc).reverse)

theorem progress_morePairs (member : TextReader Value) : Reader.Progress (morePairs member) :=
  fun _ _ _ _ h => (Reader.Strict.bind_right _ fun _ => Reader.Strict.bind_right _ fun _ =>
    (strict_goesOn _).bind _) _ _ _ h

/-- A value in which others lie at most `depth` deep. -/
def value : (depth : Nat) → TextReader Value
  | 0 => scalar
  | depth + 1 => do
    match ← peek with
    | some '[' =>
      let _ ← char '['
      .array <$> Reader.loop (moreMembers (value depth)) (progress_moreMembers _) []
    | some '\x7b' =>
      let _ ← char '\x7b'
      blanks
      let pairs ← ((fun _ => []) <$> char '\x7d').orElse
        (Reader.loop (morePairs (value depth)) (progress_morePairs _) [])
      ofOption (inline? pairs)
    | _ => scalar

/-! ## Lines -/

/-- The name of a table, or of one more element of a list of tables, between brackets. -/
def header : TextReader (Option Line) :=
  let element : TextReader (Option Line) := do
    chars ['[', '[']
    let (path, key) ← key
    chars [']', ']']
    restOfLine
    pure (some (.element path key))
  let table : TextReader (Option Line) := do
    let _ ← char '['
    let (path, key) ← key
    let _ ← char ']'
    restOfLine
    pure (some (.table path key))
  element.orElse table

/-- A line that gives a key its value. -/
def valueLine : TextReader (Option Line) := do
  let (dots, key, v) ← pair (value depthLimit)
  restOfLine
  pure (some (.value dots key v))

/-- One more line onto the reversed `acc`. -/
def moreLines (acc : List Line) : TextReader (List Line ⊕ List Line) := do
  blanks
  if ← atEnd then pure (.inr acc.reverse)
  else
    let line ← ((do comment; lineEnd; pure none : TextReader (Option Line))).orElse
      (((fun _ => none) <$> newline).orElse (header.orElse valueLine))
    pure (.inl (line.toList ++ acc))

theorem strict_header : header.Strict := ((strict_chars _ _).bind _).orElse ((strict_char _).bind _)

theorem strict_pair (member : TextReader Value) : (pair member).Strict :=
  Reader.Strict.bind_right _ fun _ => (strict_char _).bind _

theorem strict_valueLine : valueLine.Strict := (strict_pair _).bind _

theorem progress_moreLines : Reader.Progress moreLines := by
  intro acc s st' r h
  obtain ⟨_, t, ht, h⟩ := run_bind_eq_ok.mp h
  rw [run_bind_of_ok (run_atEnd t)] at h
  split at h
  · nomatch h
  · exact Nat.lt_of_lt_of_le
      (((strict_comment.bind _).orElse ((strict_newline.map _).orElse
        (strict_header.orElse strict_valueLine))).bind _ _ _ _ h) (length_le ht)

/-- The lines of a document; the mark of its byte order may come first. -/
def lines : TextReader (List Line) := do
  let _ ← optional (char '\ufeff')
  Reader.loop moreLines progress_moreLines []

end Grammar

/-- The members of the document with the given text. -/
def parse? (text : String) : Option Members :=
  match Grammar.lines.run text.toList with
  | .ok (lines, _) => ofLines? lines
  | .error _ => none

end AssetCache.Toml
