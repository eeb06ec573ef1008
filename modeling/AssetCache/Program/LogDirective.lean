import AssetCache.Characters
import AssetCache.Config
import AssetCache.Program.FieldValue

/-! # Directives about messages

A directive says up to which level messages are logged, such as `info`, `target=debug` or
`target[span{field=value}]=trace`. No span is ever open here, so a directive that asks for a span, or
for the value of a field, lets nothing through. -/

namespace AssetCache.Program

/-- How much is logged, from nothing to everything. -/
inductive LogLevel
  | off | error | warn | info | debug | trace
deriving DecidableEq, Repr

namespace LogLevel

/-- The level that a number or a name means, in whatever case it is written. -/
def ofText? (text : String) : Option LogLevel :=
  match numeral? 0x10000000000000000 text with
  | some n => [off, error, warn, info, debug, trace][n]?
  | none =>
    match text.toLower with
    | "off" => some off
    | "error" => some error
    | "warn" => some warn
    | "info" => some info
    | "debug" => some debug
    | "trace" => some trace
    | _ => none

/-- Whether messages for information are logged. -/
def informs : LogLevel → Bool
  | info | debug | trace => true
  | off | error | warn => false

end LogLevel

/-- Where a message comes from and which fields it has. -/
structure LogSource where
  target : String
  fields : List String

/-- One part of a filter. -/
structure LogDirective where
  /-- What the target of a message has to start with. -/
  target : Option String := none
  /-- The field that a message has to have. -/
  field : Option String := none
  /-- Whether it asks for more than a message by itself can meet: a span, or the value of a field. -/
  conditional : Bool := false
  level : LogLevel := .trace
deriving DecidableEq, Repr

namespace LogDirective

/-- The characters of a directive without the blanks around it, each with the one that stands at its
place when the blanks are there. What a directive consists of is seen in the former; its words are made
of the latter. -/
abbrev Marks := List (Char × Char)

/-- What stands behind marks, up to the end of the text. -/
def Marks.text (ms : Marks) (tail : List Char) : String := String.ofList (ms.map (·.2) ++ tail)

/-- Whether a target may start with a character. -/
def startsTarget (c : Char) : Bool :=
  Characters.isLetterOrDigit c || c = '-' || c = ':' || c = '_'

/-- The directive with the level that a text gives, which is everything if it gives none. -/
def withLevel? (d : LogDirective) (text : String) : Option LogDirective :=
  if text = "" then some d else (LogLevel.ofText? text).map fun level => { d with level }

/-- The directive with what comes after a span. -/
def afterSpan? (d : LogDirective) (tail : List Char) : Marks → Option LogDirective
  | [] => some d
  | ('=', _) :: ms => d.withLevel? (Marks.text ms tail)
  | _ => none

/-- The directive with a field, and with its value if one is asked for. -/
def withField? (d : LogDirective) (text : String) : Option LogDirective :=
  match text.splitOn "=" with
  | [""] => none
  | name :: value :: _ =>
    if FieldValue.isValid value then some { d with field := some name, conditional := true } else none
  | _ => some { d with field := some text }

/-- The directive with the span that marks after its opening bracket name, and with what follows. -/
def withSpan? (d : LogDirective) (tail : List Char) (ms : Marks) : Option LogDirective :=
  match ms.span fun m => m.1 ≠ ']' && m.1 ≠ '\x7b' with
  | (_, (']', _) :: ms) => { d with conditional := true }.afterSpan? tail ms
  | (name, _ :: ms) =>
    match ms.span fun m => m.1 ≠ '\x7d' with
    | (field, _ :: (']', _) :: ms) => do
      let d ← { d with conditional := !name.isEmpty }.withField? (Marks.text field [])
      d.afterSpan? tail ms
    | _ => none
  | _ => none

/-- The directive that a text gives. -/
def ofText? (text : String) : Option LogDirective :=
  let given := text.toList
  let bare := Characters.trim given
  let tail := given.drop bare.length
  match bare.zip given with
  | [] => none
  | ('[', _) :: ms => ({} : LogDirective).withSpan? tail ms
  | (c, g) :: ms =>
    if startsTarget c then
      match ((c, g) :: ms).span fun m => m.1 ≠ '=' && m.1 ≠ '[' with
      | (word, []) =>
        let word := Marks.text word tail
        match LogLevel.ofText? word with
        | some level => some { level }
        | none => some { target := some word }
      | (target, ('=', _) :: ms) =>
        { target := some (Marks.text target []) : LogDirective }.withLevel? (Marks.text ms tail)
      | (target, _ :: ms) => { target := some (Marks.text target []) : LogDirective }.withSpan? tail ms
    else none

/-- Whether a message meets a directive. -/
def admits (d : LogDirective) (source : LogSource) : Bool :=
  !d.conditional && d.target.all (source.target.startsWith ·) && d.field.all (source.fields.contains ·)

/-- How closely a directive looks: the length of its target goes before its field. -/
def closeness (d : LogDirective) : Nat :=
  2 * (d.target.map (·.length + 1)).getD 0 + d.field.isSome.toNat

end LogDirective

end AssetCache.Program
