import AssetCache.ByteReader

/-! # A cursor over bytes

A cursor remembers how far it has come. A read that fails leaves it where it was, so a shorter read
may still succeed. -/

namespace AssetCache

/-- A place in a run of bytes: how many lie before it, and those from it on. -/
structure Cursor where
  pos : Nat
  rest : Bytes
deriving DecidableEq, Repr

namespace Cursor

/-- The cursor at the start. -/
def start (bytes : Bytes) : Cursor := ⟨0, bytes⟩

/-- The number of bytes from the cursor on. -/
def remaining (c : Cursor) : Nat := c.rest.length

/-- The number of bytes before and after the cursor. -/
def length (c : Cursor) : Nat := c.pos + c.remaining

/-- Runs a reader at the cursor and moves past what it took. -/
def read {α : Type} (p : ByteReader α) (c : Cursor) : Except LoadError α × Cursor :=
  match p.run c.rest with
  | .error e => (.error e, c)
  | .ok (a, r) => (.ok a, ⟨c.pos + (c.rest.length - r.length), r⟩)

end Cursor

end AssetCache
