/-! # TOML documents

A TOML document is a table that its lines fill one after the other. A table may be added to or not
depending on how it came to be: a line may not take up again what an earlier line has settled. -/

namespace AssetCache.Toml

/-- How a table came to be. -/
inductive TableKind
  /-- By a header of its own, or as the document itself. -/
  | defined
  /-- By the header of a table inside it. -/
  | implied
  /-- By a dotted key. -/
  | dotted
  /-- As a value between braces. -/
  | inline
deriving DecidableEq, Repr

/-- A value of a document. Numbers with a fraction and times are kept as they are written. -/
inductive Value
  | string (text : String)
  | integer (n : Int)
  | float (text : String)
  | boolean (b : Bool)
  | dateTime (text : String)
  | array (members : List Value)
  | table (kind : TableKind) (members : List (String × Value))
  /-- The tables that were defined one by one under the same header. -/
  | tables (elements : List (List (String × Value)))

/-- The keys of a table and their values. -/
abbrev Members := List (String × Value)

namespace Members

/-- Gives a key its value, in place of the one that it had. -/
def replace (key : String) (v : Value) : Members → Members
  | [] => [(key, v)]
  | (k, w) :: ms => if k = key then (key, v) :: ms else (k, w) :: replace key v ms

/-- Changes the table at the end of a path. Tables that are missing on the way come to be as `fresh`.
A dotted path does not lead through tables with a header of their own; no path leads through values. -/
def within (fresh : TableKind) (f : TableKind → Members → Option Members) :
    (path : List String) → TableKind → Members → Option Members
  | [], kind, ms => f kind ms
  | key :: path, _, ms => do
    let child ← match ms.lookup key with
      | none => (within fresh f path fresh []).map (.table fresh)
      | some (.table kind child) =>
        if kind = .inline ∨ (fresh = .dotted ∧ kind = .defined) then none
        else (within fresh f path kind child).map (.table kind)
      | some (.tables elements) => do
        let last ← elements.getLast?
        let last ← within fresh f path .defined last
        pure (.tables (elements.dropLast ++ [last]))
      | some _ => none
    pure (replace key child ms)

/-- Adds a value under a new key; a dotted path has to end in a table that dotted keys made. -/
def add (dots : List String) (key : String) (v : Value) (kind : TableKind) (ms : Members) :
    Option Members :=
  within .dotted
    (fun kind ms =>
      if (ms.lookup key).isSome ∨ (dots ≠ [] ∧ kind ≠ .dotted) then none else some (ms ++ [(key, v)]))
    dots kind ms

end Members

/-- A line of a document that says something. -/
inductive Line
  | value (dots : List String) (key : String) (v : Value)
  | table (path : List String) (key : String)
  | element (path : List String) (key : String)

/-- A document in the making: its members, and the table that values go to. -/
structure Draft where
  members : Members := []
  current : List String := []

/-- What a line makes of a draft, unless it contradicts what is there. -/
def Draft.add? (d : Draft) : Line → Option Draft
  | .value dots key v => do
    let members ← d.members.within .implied (Members.add dots key v) d.current .defined
    pure { d with members }
  | .table path key => do
    let define (_ : TableKind) (ms : Members) : Option Members :=
      match ms.lookup key with
      | none => some (ms.replace key (.table .defined []))
      | some (.table .implied child) => some (ms.replace key (.table .defined child))
      | some _ => none
    let members ← d.members.within .implied define path .defined
    pure { members, current := path ++ [key] }
  | .element path key => do
    let append (_ : TableKind) (ms : Members) : Option Members :=
      match ms.lookup key with
      | none => some (ms.replace key (.tables [[]]))
      | some (.tables elements) => some (ms.replace key (.tables (elements ++ [[]])))
      | some _ => none
    let members ← d.members.within .implied append path .defined
    pure { members, current := path ++ [key] }

/-- The document that lines make. -/
def ofLines? (lines : List Line) : Option Members := (lines.foldlM Draft.add? {}).map (·.members)

/-- The table that keys and values between braces make. -/
def inline? (pairs : List (List String × String × Value)) : Option Value := do
  let ms ← pairs.foldlM (fun ms (dots, key, v) => Members.add dots key v .defined ms) ([] : Members)
  pure (.table .inline ms)

end AssetCache.Toml
