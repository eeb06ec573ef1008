import AssetCache.OpStream

/-! # The grammar of records

A row of operations as it is spelled, without the readers: `Parses` says which operations bytes spell from the
left, and how that ends. What spells an operation is up to the kind of record. -/

namespace AssetCache
open Bytes

/-- How a row of operations ends: at op-code 0, where the bytes end, at an op-code that spells nothing, or inside
of a payload. -/
inductive Ending
  | closed (rest : Bytes)
  | exhausted
  | unknown (code : UInt8)
  | cutOff
deriving DecidableEq, Repr

/-- Which operations bytes spell, and how the row of them ends. `Spells op code w` is to say that the op-code
`code` and the payload `w` spell `op`. -/
inductive Parses {Op : Type} (Spells : Op → UInt8 → Bytes → Prop) : Bytes → List Op → Ending → Prop
  | closed {rest : Bytes} : Parses Spells (0 :: rest) [] (.closed rest)
  | exhausted : Parses Spells [] [] .exhausted
  | unknown {code : UInt8} {s : Bytes} : code ≠ 0 → (∀ op w, ¬ Spells op code w) →
      Parses Spells (code :: s) [] (.unknown code)
  | cutOff {code b : UInt8} {op : Op} {s missing : Bytes} : Spells op code (s ++ b :: missing) →
      Parses Spells (code :: s) [] .cutOff
  | op {code : UInt8} {op : Op} {w s : Bytes} {ops : List Op} {e : Ending} : Spells op code w →
      Parses Spells s ops e → Parses Spells (code :: (w ++ s)) (op :: ops) e

/-- That a decoder answers as it should where a row of operations ends, `value` being what the operations make. -/
def Ending.Answers {α : Type} (kind : OpCodeKind) (value : α) : Ending → Except LoadError (α × Bytes) → Prop
  | closed rest, out => out = .ok (value, rest)
  | exhausted, out => out = .ok (value, [])
  | unknown code, out => out = .error (.unknownOpCode kind code)
  | cutOff, out => ∃ needed remaining, out = .error (.endOfData needed remaining)

/-- A line is an action, or no action if it is `hidden` in capital or small letters. -/
def SpellsAction : Option String → Bytes → Prop
  | some t, w => IsLine t ∧ t.map Char.toLower ≠ hiddenAction ∧ w = ofLine t
  | none, w => ∃ t, IsLine t ∧ t.map Char.toLower = hiddenAction ∧ w = ofLine t

/-- The bytes of a word, or of the greatest word for none. -/
def ofOptional (o : Option UInt16) : Bytes := ofU16 (o.getD 0xFFFF)

/-- A count in one byte, and as many words. -/
def ofCounted {α : Type} (encode : α → Bytes) (as : List α) : Bytes :=
  UInt8.ofNat as.length :: as.flatMap encode

def Recolor.encode (r : Recolor) : Bytes := ofU16 r.source ++ ofU16 r.target

end AssetCache
