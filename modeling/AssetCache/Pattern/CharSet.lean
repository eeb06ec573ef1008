import AssetCache.Pattern.Atom

/-! # Sets of characters

A set stands in brackets. Its members are characters, ranges, kinds, named sets and other sets; operators
between members join what stands before them with what comes up to the next one. A reader hands back how
deep the parts of a set lie in one another. -/

namespace AssetCache.Pattern
open TextReader

/-- What has been read of a set. -/
structure OpenSet where
  /-- The depth of what stands before the last operator. -/
  before : Option Nat := none
  /-- The depths of the members after it. -/
  members : List Nat := []

namespace OpenSet

/-- The depth of all that has been read. -/
def depth (s : OpenSet) : Nat := (s.before.map fun d => nested [d, nested s.members]).getD (nested s.members)

def insert (s : OpenSet) (member : Nat) : OpenSet := { s with members := member :: s.members }

/-- The set with an operator behind it. -/
def join (s : OpenSet) : OpenSet := { before := s.depth }

end OpenSet

namespace CharSet

/-- The names of sets. -/
def names : List String :=
  ["alnum", "alpha", "ascii", "blank", "cntrl", "digit", "graph", "lower", "print", "punct", "space",
    "upper", "word", "xdigit"]

/-- The name of a set, or of all but its members. -/
def named (m : Mode) : TextReader Bool := do
  chars ['[', ':']
  let negated ← Reader.optional (char '^')
  let name ← Reader.takeWhile (· ≠ ':')
  chars [':', ']']
  if names.contains (String.ofList name) then
    pure (if m.unicode then !m.anyCase else negated.isNone)
  else fail

theorem strict_named (m : Mode) : (named m).Strict := (strict_chars _ _).bind _

/-- Whether a dash comes next that makes a range of the characters around it. One that a dash or the
closing bracket follows does not; on the way to that, one sign of a comment counts as a blank. -/
def isRange (m : Mode) : List Char → Bool
  | '-' :: cs =>
    let next := if m.spaced then
        match cs.dropWhile Characters.isBlank with
        | '#' :: cs => cs.dropWhile Characters.isBlank
        | cs => cs
      else cs
    next.head? ≠ some '-' && next.head? ≠ some ']'
  | _ => false

/-- A character, a kind of characters or a range. -/
def range (m : Mode) : TextReader Unit := do
  let first ← Atom.inner m
  blanks m
  if isRange m (← Reader.ahead) then
    let _ ← char '-'
    blanks m
    match first, ← Atom.inner m with
    | .char a x, .char b y =>
      if a ≤ b && Atom.isMember m (.char a x) && Atom.isMember m (.char b y) then pure () else fail
    | _, _ => fail
  else if first.isMember m then pure () else fail

theorem strict_range (m : Mode) : (range m).Strict := (Atom.strict_inner m).bind _

/-- Dashes, or a closing bracket, which are members if they come first. -/
def start (m : Mode) : TextReader OpenSet := do
  let dashes ← Reader.many (do let c ← char '-'; blanks m; pure c) ((strict_char _).bind _)
  let first ← if dashes.isEmpty then Option.toList <$> Reader.optional (char ']') else pure dashes
  if first.all fun c => Atom.isMember m (.char c false) then pure { members := first.map fun _ => 0 }
  else fail

/-- Two signs that join what stands around them. -/
def operator : TextReader Unit :=
  (chars ['&', '&']).orElse ((chars ['-', '-']).orElse (chars ['~', '~']))

theorem strict_operator : operator.Strict :=
  (strict_chars _ _).orElse ((strict_chars _ _).orElse (strict_chars _ _))

/-- A set inside of a set, by its name or in brackets. -/
def member (m : Mode) (set : TextReader Nat) : TextReader Nat := do
  match ← Reader.optional (named m) with
  | some usable => if usable then pure 0 else fail
  | none =>
    let _ ← char '['
    set

theorem strict_member (m : Mode) (set : TextReader Nat) : (member m set).Strict := by
  intro s d r h
  obtain ⟨name, t, ht, h⟩ := Reader.run_bind_eq_ok.mp h
  cases name with
  | none => exact Nat.lt_of_lt_of_le ((strict_char _).bind _ _ _ _ h) (Reader.length_le ht)
  | some usable =>
    exact Nat.lt_of_le_of_lt (Reader.length_le h) (strict_named m _ _ _ (Reader.run_optional_some.mp ht))

/-- One more member or operator, where the closing bracket does not come next. -/
def piece (m : Mode) (set : TextReader Nat) (s : OpenSet) (next : Option Char) : TextReader OpenSet :=
  if next = some '[' then s.insert <$> member m set
  else ((fun _ => s.join) <$> operator).orElse ((fun _ => s.insert 0) <$> range m)

theorem strict_piece (m : Mode) (set : TextReader Nat) (s : OpenSet) (next : Option Char) :
    (piece m set s next).Strict := by
  unfold piece
  split
  · exact (strict_member m set).map _
  · exact (strict_operator.map _).orElse ((strict_range m).map _)

/-- One more piece of a set, or its end and the depth of it all. -/
def more (m : Mode) (set : TextReader Nat) (s : OpenSet) : TextReader (OpenSet ⊕ Nat) := do
  blanks m
  let next ← Reader.peek
  if next = some ']' then (fun _ => .inr (s.depth + 1)) <$> char ']'
  else .inl <$> piece m set s next

theorem strict_more (m : Mode) (set : TextReader Nat) (s : OpenSet) : (more m set s).Strict := by
  refine Reader.Strict.bind_right _ fun _ => Reader.Strict.bind_right _ fun next => ?_
  split
  · exact (strict_char _).map _
  · exact (strict_piece m set s next).map _

theorem progress_more (m : Mode) (set : TextReader Nat) : Reader.Progress (more m set) :=
  fun s _ _ _ h => strict_more m set s _ _ _ h

/-- A set after its opening bracket, with others in it at most `depth` deep. -/
def content (m : Mode) : (depth : Nat) → TextReader Nat
  | 0 => fail
  | depth + 1 => do
    blanks m
    let negated ← Reader.optional (do let _ ← char '^'; blanks m)
    if negated.isSome && !m.unicode then fail
    else Reader.loop (more m (content m depth)) (progress_more m _) (← start m)

end CharSet

end AssetCache.Pattern
