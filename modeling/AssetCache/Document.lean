import AssetCache.LoadError

/-! # JSON documents

What is dumped is a tree of numbers, texts, lists and named members, in the order in which it is
written. The written form puts every member on a line of its own, two spaces deeper than what holds it,
and leaves empty lists and objects on one line. -/

namespace AssetCache

/-- A JSON document whose numbers are integers. -/
inductive Document
  | null
  | bool (value : Bool)
  | number (value : Int)
  | string (value : String)
  | list (members : List Document)
  | object (members : List (String × Document))

namespace Document

def nat (n : Nat) : Document := number n

/-- A value, or null if there is none. -/
def optional {α : Type} (f : α → Document) : Option α → Document
  | some a => f a
  | none => null

/-- A character inside a quoted text. -/
def escape (c : Char) : List Char :=
  match c with
  | '"' => ['\\', '"']
  | '\\' => ['\\', '\\']
  | '\n' => ['\\', 'n']
  | '\r' => ['\\', 'r']
  | '\t' => ['\\', 't']
  | '\x08' => ['\\', 'b']
  | '\x0c' => ['\\', 'f']
  | c => if c.toNat < 0x20 then ['\\', 'u'] ++ hexDigits 4 c.toNat else [c]

/-- A quoted text. -/
def quote (s : String) : String := "\"" ++ String.ofList (s.toList.flatMap escape) ++ "\""

/-- A new line at the given depth. -/
def newLine (depth : Nat) : String := "\n" ++ String.ofList (List.replicate (2 * depth) ' ')

/-- Lines between brackets. -/
def enclose (opening closing : String) (depth : Nat) (lines : List String) : String :=
  if lines.isEmpty then opening ++ closing
  else
    opening ++ newLine (depth + 1) ++ ("," ++ newLine (depth + 1)).intercalate lines ++ newLine depth
      ++ closing

mutual

/-- The written form at the given depth. -/
def render (depth : Nat) : Document → String
  | null => "null"
  | bool value => if value then "true" else "false"
  | number value => toString value
  | string value => quote value
  | list members => enclose "[" "]" depth (renderList (depth + 1) members)
  | object members => enclose "\x7b" "\x7d" depth (renderMembers (depth + 1) members)

/-- The written forms of the members of a list. -/
def renderList (depth : Nat) : List Document → List String
  | [] => []
  | d :: ds => render depth d :: renderList depth ds

/-- The written forms of the members of an object. -/
def renderMembers (depth : Nat) : List (String × Document) → List String
  | [] => []
  | (name, d) :: ds => (quote name ++ ": " ++ render depth d) :: renderMembers depth ds

end

end Document

end AssetCache
