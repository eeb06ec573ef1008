import AssetCache.Program.LogDirective

/-! # Which messages are logged

A filter is a row of directives between commas. Of those that a message meets, the one with the longest
target decides, then one that names a field, then the last one; a message that meets none is not
logged. -/

namespace AssetCache.Program

/-- The directives of a filter, in their order. -/
abbrev LogFilter := List LogDirective

namespace LogFilter

/-- The filter that a text gives; one without directives lets errors through. -/
def ofText? (text : String) : Option LogFilter := do
  let directives ← ((text.splitOn ",").filter (· ≠ "")).mapM LogDirective.ofText?
  pure (if directives.isEmpty then [{ level := .error }] else directives)

/-- The closer of two directives, the second of equals. -/
def closer (best : Option LogDirective) (d : LogDirective) : Option LogDirective :=
  match best with
  | none => some d
  | some b => if d.closeness < b.closeness then some b else some d

/-- The level for messages from a source. -/
def level (f : LogFilter) (source : LogSource) : LogLevel :=
  (((f.filter (·.admits source)).foldl closer none).map (·.level)).getD .off

end LogFilter

end AssetCache.Program
