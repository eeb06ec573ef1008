import AssetCache.Document.Definitions
import AssetCache.Program.Failure
import AssetCache.Startup

/-! # The dump program

Decodes a whole cache and writes what it found as JSON files: one for each kind of definition and one
for each region. Nothing is written unless everything could be decoded. -/

namespace AssetCache.Program

/-- Where the dump program reads and writes, if its arguments say so. -/
structure DumpOptions where
  cachePath : Option String := none
  outputPath : Option String := none
deriving DecidableEq, Repr

/-- What the dump program is asked for. -/
inductive DumpRequest
  | help
  | dump (options : DumpOptions)
deriving DecidableEq, Repr

/-- What is wrong with an argument. -/
inductive ArgumentError
  | missingValue (option : String)
  | threads (value : String)
  | unknown (argument : String)
deriving DecidableEq, Repr

/-- The text shown for an error. -/
def ArgumentError.message : ArgumentError → String
  | missingValue option => s!"Missing value for {option}"
  | threads value => s!"Invalid threads value: {value}"
  | unknown argument => s!"Unknown argument: {argument}"

namespace DumpRequest

/-- The request that arguments make, on top of earlier options. The first help option or error ends it;
of two values for one option the last one holds. The number of threads does not change what is
dumped, nor does the verbose option. -/
def ofArguments (options : DumpOptions) : List String → Except ArgumentError DumpRequest
  | [] => .ok (.dump options)
  | "--cache" :: rest | "-c" :: rest =>
    match rest with
    | [] => .error (.missingValue "--cache")
    | path :: rest => ofArguments { options with cachePath := some path } rest
  | "--output" :: rest | "-o" :: rest =>
    match rest with
    | [] => .error (.missingValue "--output")
    | path :: rest => ofArguments { options with outputPath := some path } rest
  | "--threads" :: rest | "-t" :: rest =>
    match rest with
    | [] => .error (.missingValue "--threads")
    | value :: rest =>
      if (numeral? 0x10000000000000000 value).isSome then ofArguments options rest
      else .error (.threads value)
  | "--verbose" :: rest | "-v" :: rest => ofArguments options rest
  | "--help" :: _ | "-h" :: _ => .ok .help
  | argument :: _ => .error (.unknown argument)

end DumpRequest

/-- The text that the help option asks for. -/
def helpText : String := "
Definition Dump Tool - Rustscape

Decodes items, world objects, interfaces and map regions from a 317 cache
and writes them as JSON. Region files are written in parallel.

USAGE:
    dump-definitions [OPTIONS]

OPTIONS:
    -c, --cache <PATH>     Cache directory (default: cache_path from the config)
    -o, --output <PATH>    Output directory (default: dump_path from the config)
    -t, --threads <N>      Number of threads to use (0 = auto-detect, default)
    -v, --verbose          Enable verbose output
    -h, --help             Print this help message

ENVIRONMENT:
    RUSTSCAPE_CONFIG       Configuration file (default: config/cache.toml)

"

/-- The files as they are, and what has been written so far, the last first. -/
structure DumpState where
  files : FileTree
  wrote : List String := []

/-- An action that writes files until one fails. -/
abbrev Dump := ExceptT Failure (StateM DumpState)

namespace Dump

/-- Changes the files, which may fail at the given path. -/
def change (path : String) (f : FileTree → Except FileFault FileTree) : Dump Unit := do
  match f (← get).files with
  | .ok files => modify fun s => { s with files }
  | .error fault => throw (.create path fault)

/-- Writes a document to the file that a path leads to. -/
def writeDocument (path : String) (d : Document) : Dump Unit :=
  change path fun files => files.write path (d.render 0).toUTF8.data.toList

/-- Notes what has been written. -/
def note (line : String) : Dump Unit := modify fun s => { s with wrote := line :: s.wrote }

/-- The name of the file for a region. -/
def regionFile (r : Region) : String := s!"{r.x}_{r.y}.json"

/-- Writes all assets into a folder. -/
def writeAssets (folder : String) (a : Assets) : Dump Unit := do
  let regionFolder := joinPath folder "regions"
  change regionFolder fun files => files.makeFolder regionFolder
  writeDocument (joinPath folder "items.json") (.list (a.items.toList.map Item.document))
  writeDocument (joinPath folder "objects.json") (.list (a.objects.map WorldObject.document))
  writeDocument (joinPath folder "interfaces.json") a.interfaces.document
  note s!"{a.items.size} items, {a.objects.length} objects, {a.interfaces.length} interfaces"
  let regions := a.map.regions
  regions.forM fun r =>
    writeDocument (joinPath regionFolder (regionFile r)) (a.map.regionDocument r)
  note s!"{regions.length} region files"

/-- Decodes the cache that options, environment and configuration name, and writes what it holds. -/
def cache (options : DumpOptions) (env : Environment) : Dump Unit := do
  let files := (← get).files
  let config ← liftExcept ((Config.load files env).mapError Failure.config)
  let cachePath := options.cachePath.getD config.cachePath
  let assets ← liftExcept ((Assets.ofFiles files cachePath config.categoryCount).mapError Failure.load)
  writeAssets (options.outputPath.getD config.dumpPath) assets

end Dump

/-- What the dump program leaves behind. -/
structure DumpOutcome where
  exitCode : UInt8 := 0
  /-- The help text, if it was asked for. -/
  help : Option String := none
  /-- What is said about wrong arguments. -/
  complaint : String := ""
  wrote : List String := []
  /-- What is logged about a failure. -/
  failed : Option String := none
  files : FileTree

/-- Runs the dump program. -/
def dumpDefinitions (arguments : List String) (env : Environment) (files : FileTree) : DumpOutcome :=
  match DumpRequest.ofArguments {} arguments with
  | .error e =>
    { exitCode := 1, complaint := s!"Error: {e.message}\nUse --help for usage information\n", files }
  | .ok .help => { help := some helpText, files }
  | .ok (.dump options) =>
    let (result, s) := (Dump.cache options env).run.run { files }
    let outcome : DumpOutcome := { wrote := s.wrote.reverse, files := s.files }
    match result with
    | .ok () => outcome
    | .error e => { outcome with exitCode := 1, failed := some (logLine e.messages) }

end AssetCache.Program
