import AssetCache.OpStream.Grammar

/-! # Records of whole operations

A record given by what it is made of: operations, each with the op-code and the payload that spell it, and what
ends them. An op-code tells which part an operation is about; `key` says when two op-codes are about one part. -/

namespace AssetCache
variable {Op : Type} {Spells : Op → UInt8 → Bytes → Prop}

/-- An operation with the op-code and the payload that spell it. -/
structure SpelledOp (Spells : Op → UInt8 → Bytes → Prop) where
  op : Op
  code : UInt8
  payload : Bytes
  spells : Spells op code payload

/-- A record of whole operations. It ends at op-code 0, behind which other bytes may stand, or where the bytes end. -/
structure WholeRecord (Spells : Op → UInt8 → Bytes → Prop) where
  ops : List (SpelledOp Spells)
  behind : Option Bytes

namespace WholeRecord
variable (r : WholeRecord Spells)

def bytes : Bytes :=
  r.ops.flatMap (fun o => o.code :: o.payload) ++
    match r.behind with
    | some rest => 0 :: rest
    | none => []

/-- What is left when the record has been read. -/
def rest : Bytes := r.behind.getD []

def ending : Ending :=
  match r.behind with
  | some rest => .closed rest
  | none => .exhausted

/-- The op-codes of the record, but for the one that ends it. -/
def codes : List UInt8 := r.ops.map (·.code)

end WholeRecord

/-- The last of the operations whose op-code has the key `k`. -/
def SpelledOp.latest? (key : UInt8 → UInt8) (ops : List (SpelledOp Spells)) (k : UInt8) :
    Option (SpelledOp Spells) :=
  (ops.filter fun o => key o.code = k).getLast?

/-- What the last of these operations is, without its spelling. -/
def WholeRecord.latest? (r : WholeRecord Spells) (key : UInt8 → UInt8) (k : UInt8) : Option Op :=
  (SpelledOp.latest? key r.ops k).map (·.op)

/-- That two rows have the same operations, and those whose op-codes have one key in the same order. -/
def SpelledOp.Reorders (key : UInt8 → UInt8) (ops ops' : List (SpelledOp Spells)) : Prop :=
  ∀ k, (ops.filter fun o => key o.code = k) = ops'.filter fun o => key o.code = k

end AssetCache
