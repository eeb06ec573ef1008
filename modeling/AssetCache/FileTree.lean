import AssetCache.Bytes

/-! # Files and folders

A tree holds files at places. A path is a text that leads to a place: step by step from the working
folder, or from the root if it starts with a slash. Every step but the last has to start in a folder,
also an empty one: a path that ends in a slash leads to folders only. Names and paths have a greatest
length, and no path has the character NUL. -/

namespace AssetCache

/-- The names on the way to a file or folder. The root is the name `/`, and a place above the working
folder starts with as many names `..` as it is higher. -/
abbrev Place := List String

/-- Files at their places, and the folders that are there even if they are empty. -/
structure FileTree where
  files : List (Place × Bytes) := []
  folders : List Place := []

/-- What lies at a place. -/
inductive FileNode
  | file (contents : Bytes)
  | folder

/-- Why something could not be read or written. -/
inductive FileFault
  | missing
  | folderExpected
  | folderFound
  | fileFound
  | nameTooLong
  | nulInName
  | notText
deriving DecidableEq, Repr

/-- The text shown for a fault. -/
def FileFault.message : FileFault → String
  | missing => "No such file or directory (os error 2)"
  | folderExpected => "Not a directory (os error 20)"
  | folderFound => "Is a directory (os error 21)"
  | fileFound => "File exists (os error 17)"
  | nameTooLong => "File name too long (os error 36)"
  | nulInName => "file name contained an unexpected NUL byte"
  | notText => "stream did not contain valid UTF-8"

/-- The path of something inside a folder. -/
def joinPath (folder name : String) : String :=
  if folder.isEmpty ∨ folder.endsWith "/" then folder ++ name else folder ++ "/" ++ name

namespace Place

/-- Whether a place is one that every tree has: the working folder, what is above it, or the root. -/
def isGiven (p : Place) : Bool := p.all fun name => name = "/" || name = ".."

/-- The folder that holds a place. -/
def parent (p : Place) : Place :=
  if p = ["/"] then p else if p.isGiven then p ++ [".."] else p.dropLast

/-- The place that one more name of a path leads to. -/
def step (p : Place) (name : String) : Place :=
  if name = "" ∨ name = "." then p else if name = ".." then p.parent else p ++ [name]

end Place

namespace FileTree

/-- What lies at a place, if anything. -/
def node? (t : FileTree) (p : Place) : Option FileNode :=
  match t.files.lookup p with
  | some contents => some (.file contents)
  | none =>
    let holds := t.folders.any p.isPrefixOf || t.files.any (p.isPrefixOf ·.1)
    if p.isGiven || holds then some .folder else none

/-- The most bytes that a name may have. -/
def longestName : Nat := 255

/-- The most bytes that a path may have. -/
def longestPath : Nat := 4095

/-- Where a path starts, and the names of its steps; an empty path starts nowhere. -/
def route (path : String) : Except FileFault (Option (Place × List String)) :=
  if path.contains '\x00' then .error .nulInName
  else if longestPath < path.utf8ByteSize then .error .nameTooLong
  else
    match path.splitOn "/" with
    | [""] => .ok none
    | "" :: names => .ok (some (["/"], names))
    | names => .ok (some ([], names))

/-- Takes the steps that names say, each of which has to start in a folder. -/
def walk (t : FileTree) (p : Place) : List String → Except FileFault Place
  | [] => .ok p
  | name :: names =>
    match t.node? p with
    | some .folder =>
      if name.utf8ByteSize ≤ longestName then walk t (p.step name) names else .error .nameTooLong
    | some (.file _) => .error .folderExpected
    | none => .error .missing

/-- The place that a path leads to, where there may be nothing yet. -/
def resolve (t : FileTree) (path : String) : Except FileFault Place := do
  match ← route path with
  | some (p, names) => t.walk p names
  | none => .error .missing

/-- What a path leads to, if anything. -/
def look? (t : FileTree) (path : String) : Option FileNode :=
  match t.resolve path with
  | .ok p => t.node? p
  | .error _ => none

/-- The contents of the file that a path leads to, if it leads to a file. -/
def file? (t : FileTree) (path : String) : Option Bytes :=
  match t.look? path with
  | some (.file contents) => some contents
  | _ => none

/-- Whether a path leads to a folder. -/
def isFolder (t : FileTree) (path : String) : Bool :=
  match t.look? path with
  | some .folder => true
  | _ => false

/-- Puts a file at a place, instead of the one that may be there. -/
def insert (t : FileTree) (p : Place) (contents : Bytes) : FileTree :=
  { t with files := (p, contents) :: t.files.filter (·.1 ≠ p) }

/-- Writes a file into a folder that is there. -/
def write (t : FileTree) (path : String) (contents : Bytes) : Except FileFault FileTree := do
  let p ← t.resolve path
  match t.node? p with
  | some .folder => .error .folderFound
  | _ => .ok (t.insert p contents)

/-- Makes the folder that names lead to, unless it is there, in a folder that is there. -/
def makeLast (t : FileTree) (p : Place) (names : List String) : Except FileFault FileTree := do
  let q ← t.walk p names
  match t.node? q with
  | some .folder => .ok t
  | some (.file _) => .error .fileFound
  | none => .ok { t with folders := q :: t.folders }

/-- Makes the folder that names lead to, the last of them first, and before it those above it if they
are missing. -/
def makeWay (t : FileTree) (p : Place) : (reversed : List String) → Except FileFault FileTree
  | [] => .ok t
  | name :: above =>
    match t.makeLast p (name :: above).reverse with
    | .error .missing => do (← t.makeWay p above).makeLast p (name :: above).reverse
    | outcome => outcome

/-- Makes a folder and those above it, unless they are there. -/
def makeFolder (t : FileTree) (path : String) : Except FileFault FileTree := do
  match ← route path with
  | some (p, names) => t.makeWay p names.reverse
  | none => .ok t

end FileTree

end AssetCache
