import AssetCache.Program.Dump
import AssetCache.Program.Load

/-! # The command line

Both programs are functions of arguments, environment and files. Here the files that they may look at
are taken from disk beforehand, and what they leave behind is put there afterwards. -/

namespace AssetCache.Program

/-- The variables that the programs look at. -/
def variableNames : List String :=
  ["RUSTSCAPE_CONFIG", "RUSTSCAPE_CACHE_PATH", "RUSTSCAPE_CATEGORY_COUNT", "RUSTSCAPE_DUMP_PATH",
    "RUSTSCAPE_DEBUG", "RUST_LOG"]

/-- The environment as it is. -/
def environment : IO Environment := do
  let values ← variableNames.mapM fun name => do pure (name, ← IO.getEnv name)
  pure fun name => (values.lookup name).bind id

/-- Adds what is on disk at a path to a tree. -/
def take (tree : FileTree) (path : String) : IO FileTree := do
  match FileTree.route path with
  | .ok (some (p, names)) =>
    let place := names.foldl Place.step p
    try
      let contents ← IO.FS.readBinFile path
      pure (tree.insert place contents.data.toList)
    catch
      | .noFileOrDirectory .. => pure tree
      | _ => pure { tree with folders := place :: tree.folders }
  | _ => pure tree

/-- The paths that a path passes, and itself. -/
def waysTo (path : String) : List String :=
  let names := path.splitOn "/"
  (List.range names.length).map fun i => "/".intercalate (names.take (i + 1))

/-- Adds what is on disk at a path and on the way there. -/
def takeWay (tree : FileTree) (path : String) : IO FileTree := (waysTo path).foldlM take tree

/-- Adds what is on disk under some names in a folder, and the folder. -/
def takeFolder (tree : FileTree) (folder : String) (names : List String) : IO FileTree := do
  names.foldlM (fun tree name => take tree (joinPath folder name)) (← takeWay tree folder)

/-- The files that a program looks at when it reads the cache and writes to the folder that options or
configuration name. -/
def takeFiles (options : DumpOptions) (env : Environment) : IO FileTree := do
  let tree ← takeWay {} (Config.path env)
  match Config.load tree env with
  | .error _ => pure tree
  | .ok config =>
    let indices := (List.range config.categoryCount.toNat).map fun i => s!"main_file_cache.idx{i}"
    let tree ← takeFolder tree (options.cachePath.getD config.cachePath) ("main_file_cache.dat" :: indices)
    takeFolder tree (options.outputPath.getD config.dumpPath)
      ["regions", "items.json", "objects.json", "interfaces.json"]

/-- A path to a place. -/
def pathOf : Place → String
  | "/" :: names => "/" ++ "/".intercalate names
  | names => "/".intercalate names

/-- Writes the files of a tree that are not in an earlier one. -/
def store (before after : FileTree) : IO Unit :=
  after.files.reverse.forM fun (place, contents) => do
    if before.files.lookup place ≠ some contents then
      if place.length > 1 then IO.FS.createDirAll (pathOf place.dropLast)
      IO.FS.writeBinFile (pathOf place) (ByteArray.mk contents.toArray)

/-- The dump program. -/
def runDump (arguments : List String) : IO UInt32 := do
  let env ← environment
  let files ← match DumpRequest.ofArguments {} arguments with
    | .ok (.dump options) => takeFiles options env
    | _ => pure {}
  let outcome := dumpDefinitions arguments env files
  IO.print (outcome.help.getD "")
  IO.eprint outcome.complaint
  store files outcome.files
  outcome.wrote.forM fun line => IO.println s!"Wrote {line}"
  outcome.failed.toList.forM fun text => IO.println s!"Dump failed: {text}"
  pure outcome.exitCode.toUInt32

/-- The loading program. -/
def runLoad : IO UInt32 := do
  let env ← environment
  let outcome := loadCache env (← takeFiles {} env)
  outcome.loaded.toList.forM fun text => IO.println s!"Loaded {text}"
  IO.eprint outcome.complaint
  pure outcome.exitCode.toUInt32

end AssetCache.Program

/-- Runs the program that the first argument names: the dump program with the other arguments, or else
the loading program. -/
def main : List String → IO UInt32
  | "dump-definitions" :: arguments => AssetCache.Program.runDump arguments
  | _ => AssetCache.Program.runLoad
