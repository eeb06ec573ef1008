import AssetCache.Config
import AssetCache.Manager
import AssetCache.SectorStore

/-! # Opening a cache

A cache is a folder with one data file and one index file for each category. What is missing first, in
that order, is what is reported. -/

namespace AssetCache

/-- The files of a cache in a folder. -/
def SectorStore.ofFiles (files : FileTree) (path : String) (categoryCount : UInt8) :
    Except LoadError SectorStore := do
  let read (path : String) : Except LoadError (Array UInt8) :=
    match files.file? path with
    | some contents => .ok contents.toArray
    | none => .error (.notFound path)
  if ¬ files.isFolder path then .error (.notFound path)
  else
    let data ← read (joinPath path "main_file_cache.dat")
    let indices ← (List.range categoryCount.toNat).mapM fun i =>
      read (joinPath path s!"main_file_cache.idx{i}")
    pure { data, indices }

namespace Assets

/-- Everything in the cache in a folder. -/
def ofFiles (files : FileTree) (path : String) (categoryCount : UInt8) : Except LoadError Assets := do
  let store ← SectorStore.ofFiles files path categoryCount
  ((Manager.loadAll store.read).run {}).1

/-- One line on how much there is. -/
def summary (a : Assets) : String :=
  let counts := s!"{a.items.size} items, {a.objects.length} objects, {a.interfaces.length} interfaces"
  let map := a.map
  counts ++ s!", {map.regions.length} regions, {map.tileCount} tiles, map bound {map.maxX}x{map.maxY}"

end Assets

end AssetCache
