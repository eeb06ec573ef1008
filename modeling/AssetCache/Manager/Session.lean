import AssetCache.Manager

/-! # Sessions

A session is what a manager is asked, one request after the other. A request that fails does not end it, and
neither does closing the manager. -/

namespace AssetCache

/-- What a manager can be asked. -/
inductive Request
  | archive (category : UInt8) (id : UInt32)
  | file (category : UInt8) (id : UInt32) (name : String)
  | items
  | objects
  | interfaces
  | map
  | loadAll
  | close
deriving DecidableEq, Repr

/-- What a request is answered with if it succeeds. -/
inductive Reply
  | archive (a : Archive)
  | file (content : Bytes)
  | items (items : Array Item)
  | objects (objects : List WorldObject)
  | interfaces (table : InterfaceTable)
  | map (map : WorldMap)
  | assets (assets : Assets)
  | closed

/-- Does what is asked. -/
def Request.perform (source : Source) : Request → Load Reply
  | archive category id => .archive <$> Manager.archive source category id
  | file category id name => .file <$> Manager.file source category id name
  | items => .items <$> Manager.items source
  | objects => .objects <$> Manager.objects source
  | interfaces => .interfaces <$> Manager.interfaces source
  | map => .map <$> Manager.map source
  | loadAll => .assets <$> Manager.loadAll source
  | close => do
    modify Manager.close
    pure .closed

namespace Manager

/-- What a session is answered with, and the manager after it. -/
def serve (source : Source) : List Request → Manager → List (Except LoadError Reply) × Manager
  | [], m => ([], m)
  | r :: rs, m =>
    let (reply, m) := (r.perform source).run m
    let (replies, m) := serve source rs m
    (reply :: replies, m)

end Manager

end AssetCache
