import AssetCache.Pattern.CharSet

/-! # Patterns

A pattern has alternatives between bars; each is a row of atoms, sets and groups, which may be repeated.
Nothing is matched against a pattern here: `Pattern.isValid` says whether a text is one. Readers hand back
how deep the parts of what they took lie in one another. -/

namespace AssetCache.Pattern
open TextReader

namespace Mode

/-- The letters that stand for something to be switched; three of them matter here. -/
def letters : List Char := ['i', 'm', 's', 'U', 'u', 'R', 'x']

/-- Whether what a letter stands for is on after marks, when it was as told before them. -/
def isOn (marks : List Char) (letter : Char) (before : Bool) : Bool :=
  let (on, off) := marks.span (· ≠ '-')
  on.contains letter || before && !off.contains letter

/-- The mode that marks switch to: letters, and a dash before those that switch off. -/
def switched? (m : Mode) (marks : List Char) : Option Mode :=
  if marks.Nodup ∧ marks.all (fun c => c = '-' || letters.contains c) ∧ marks.getLast? ≠ some '-' then
    some
      { anyCase := isOn marks 'i' m.anyCase
        unicode := isOn marks 'u' m.unicode
        spaced := isOn marks 'x' m.spaced }
  else none

end Mode

/-- Whether a group may have a name. -/
def isName : List Char → Bool
  | [] => false
  | c :: cs =>
    (c = '_' || Characters.isLetter c) &&
      cs.all fun c => ['_', '.', '[', ']'].contains c || Characters.isLetterOrDigit c

/-- One of the parts that stand behind one another. -/
structure Part where
  depth : Nat
  repeatable : Bool

/-- What has been read of a pattern or a group. -/
structure Alternatives where
  mode : Mode := {}
  /-- The names of the groups up to here. -/
  names : List (List Char) := []
  /-- The depths of the alternatives before the last bar. -/
  before : List Nat := []
  /-- The parts after it, the last one first. -/
  parts : List Part := []

namespace Alternatives

/-- The depth of all that has been read. -/
def depth (a : Alternatives) : Nat := nested (nested (a.parts.map (·.depth)) :: a.before)

def add (a : Alternatives) (depth : Nat) : Alternatives := { a with parts := ⟨depth, true⟩ :: a.parts }

/-- The alternatives with a bar behind them. -/
def branch (a : Alternatives) : Alternatives :=
  { a with before := nested (a.parts.map (·.depth)) :: a.before, parts := [] }

/-- The alternatives with another mode from here on. -/
def switch (a : Alternatives) (m : Mode) : Alternatives :=
  { a with mode := m, parts := ⟨0, false⟩ :: a.parts }

/-- A reader of alternatives, up to the end of their group. -/
abbrev Body := Alternatives → TextReader Alternatives

/-- The rest of a group, after what it starts with. -/
def group (body : Body) (a : Alternatives) (m : Mode) (names : List (List Char)) :
    TextReader Alternatives := do
  let inner ← body { mode := m, names }
  let _ ← char ')'
  pure { a.add (inner.depth + 1) with names := inner.names }

/-- A group whose name comes next. -/
def namedGroup (body : Body) (a : Alternatives) : TextReader Alternatives := do
  let name ← Reader.takeWhile (· ≠ '>')
  let _ ← char '>'
  if isName name && !a.names.contains name then group body a a.mode (name :: a.names) else fail

/-- A switch of the mode, for a group or for all that comes up to the end of the group around it. -/
def modeGroup (body : Body) (a : Alternatives) : TextReader Alternatives := do
  let marks ← Reader.takeWhile fun c => c ≠ ':' && c ≠ ')'
  let m ← ofOption (a.mode.switched? marks)
  match ← such fun _ => true with
  | ':' => group body a m a.names
  | _ => if marks.isEmpty then fail else pure (a.switch m)

/-- A group or a switch of the mode. -/
def parenthesis (body : Body) (a : Alternatives) : TextReader Alternatives := do
  let _ ← char '('
  blanks a.mode
  match ← Reader.optional (char '?') with
  | none => group body a a.mode a.names
  | some _ =>
    match ← Reader.optional ((chars ['P', '<']).orElse (chars ['<'])) with
    | some _ => namedGroup body a
    | none => modeGroup body a

/-- A sign that the part before it may come more than once or not at all; a question mark right behind it
belongs to it. -/
def repetition (a : Alternatives) : TextReader Alternatives := do
  let _ ← such fun c => c = '?' || c = '*' || c = '+'
  let _ ← Reader.optional (char '?')
  match a.parts with
  | ⟨depth, true⟩ :: parts => pure { a with parts := ⟨depth + 1, true⟩ :: parts }
  | _ => fail

def set (depth : Nat) (a : Alternatives) : TextReader Alternatives := do
  let _ ← char '['
  let d ← CharSet.content a.mode depth
  pure (a.add d)

def atom (a : Alternatives) : TextReader Alternatives := do
  let one ← Atom.outer a.mode
  if one.isUsable a.mode then pure (a.add 0) else fail

/-- One more part, or a bar, which starts with the given character. -/
def piece (body : Body) (depth : Nat) (a : Alternatives) : Char → TextReader Alternatives
  | '|' => (fun _ => a.branch) <$> char '|'
  | '(' => parenthesis body a
  | '[' => set depth a
  | '?' | '*' | '+' => repetition a
  | '\x7b' => fail
  | _ => atom a

theorem strict_piece (body : Body) (depth : Nat) (a : Alternatives) (c : Char) :
    (piece body depth a c).Strict := by
  unfold piece
  split
  · exact (strict_char _).map _
  · exact (strict_char _).bind _
  · exact (strict_char _).bind _
  iterate 3 exact (strict_such _).bind _
  · exact Reader.Strict.fail _
  · exact (Atom.strict_outer _).bind _

/-- One more piece, or what there is at the end of the text or before a closing parenthesis. -/
def more (body : Body) (depth : Nat) (a : Alternatives) :
    TextReader (Alternatives ⊕ Alternatives) := do
  blanks a.mode
  match ← Reader.peek with
  | none | some ')' => pure (.inr a)
  | some c => .inl <$> piece body depth a c

theorem progress_more (body : Body) (depth : Nat) : Reader.Progress (more body depth) := by
  intro a s b r h
  obtain ⟨_, t, ht, h⟩ := Reader.run_bind_eq_ok.mp h
  obtain ⟨next, u, hu, h⟩ := Reader.run_bind_eq_ok.mp h
  refine Nat.lt_of_lt_of_le ?_ (Nat.le_trans (Reader.length_le hu) (Reader.length_le ht))
  split at h
  · nomatch h
  · nomatch h
  · exact (strict_piece body depth a _).map _ _ _ _ h

/-- All up to the end of a group, with groups and sets in it at most `depth` deep. -/
def content : (depth : Nat) → Body
  | 0 => fun _ => fail
  | depth + 1 => Reader.loop (more (content depth) depth) (progress_more _ _)

end Alternatives

/-- The deepest that the parts of a pattern may lie in one another. -/
def depthLimit : Nat := 250

/-- Whether a text is a pattern. -/
def isValid (text : String) : Bool :=
  match (Alternatives.content (depthLimit + 1) {}).run text.toList with
  | .ok (a, []) => a.depth ≤ depthLimit
  | _ => false

end AssetCache.Pattern
