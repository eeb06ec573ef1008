import AssetCache.Cursor
import AssetCache.Field

/-! # Requests to a cursor

A cursor is asked for one value after the other. A request that fails leaves it where it was, and the next one is
answered from there. -/

namespace AssetCache

/-- What can be asked of a cursor: a value of a type, or to pass over some bytes. -/
inductive CursorRequest
  | value (type : FieldType)
  | skip (count : Nat)
deriving DecidableEq, Repr

/-- What a request takes off the front, and the value that it is answered with, if any. -/
def CursorRequest.reader : CursorRequest → ByteReader (Option Field)
  | value type => some <$> type.read
  | skip count => (fun _ => none) <$> ByteReader.skip count

/-- What a request is answered with. -/
abbrev CursorAnswer := Except LoadError (Option Field)

namespace Cursor

/-- The answer to a request, and the cursor after it. -/
def perform (c : Cursor) (q : CursorRequest) : CursorAnswer × Cursor := c.read q.reader

/-- The answers to a row of requests, and the cursor after all of them. -/
def performAll : List CursorRequest → Cursor → List CursorAnswer × Cursor
  | [], c => ([], c)
  | q :: qs, c =>
    let (answer, c) := c.perform q
    let (answers, c) := performAll qs c
    (answer :: answers, c)

end Cursor

end AssetCache
