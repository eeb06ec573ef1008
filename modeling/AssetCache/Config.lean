import AssetCache.FileTree
import AssetCache.Toml.Grammar

/-! # The configuration

What a program is told about the cache comes from a file and from the environment, which goes before
the file. A file that is not there counts as an empty one. The result of `Config.load` names at least
one category and a cache path. -/

namespace AssetCache

/-- The values of the variables that are set. -/
abbrev Environment := String → Option String

/-- The number below `limit` that decimal digits mean; a plus sign may come first. -/
def numeral? (limit : Nat) (text : String) : Option Nat :=
  let digits := match text.toList with
    | '+' :: cs => cs
    | cs => cs
  let n := TextReader.numberOf 10 digits
  if digits ≠ [] ∧ digits.all Char.isDigit ∧ n < limit then some n else none

/-- What a program is told about the cache. -/
structure Config where
  /-- The file that it was looked for in. -/
  configPath : String := ""
  cachePath : String := "./data/cache"
  categoryCount : UInt8 := 5
  dumpPath : String := "./data/dump"
  debug : Bool := false
deriving DecidableEq, Repr

/-- Why there is no configuration. -/
inductive ConfigError
  | read (path : String) (fault : FileFault)
  | parse (path : String)
  | noCategories
  | noCachePath
deriving DecidableEq, Repr

/-- The text shown for an error. -/
def ConfigError.message : ConfigError → String
  | read path _ => s!"Failed to read config file: {path}"
  | parse path => s!"Failed to parse config file: {path}"
  | noCategories => "Category count must be between 1 and 255"
  | noCachePath => "Cache path must not be empty"

/-- The texts of what caused an error. -/
def ConfigError.causes : ConfigError → List String
  | read _ fault => [fault.message]
  | parse _ => ["TOML parse error"]
  | noCategories | noCachePath => []

namespace Config

/-- Where the configuration is looked for, unless the environment says otherwise. -/
def defaultPath : String := "config/cache.toml"

/-- The member of a document with the given key, or `default`, if `f` takes what is there. -/
def member? {α : Type} (ms : Toml.Members) (key : String) (default : α) (f : Toml.Value → Option α) :
    Option α :=
  match ms.lookup key with
  | none => some default
  | some v => f v

def text? : Toml.Value → Option String
  | .string s => some s
  | _ => none

def count? : Toml.Value → Option UInt8
  | .integer n => if 0 ≤ n ∧ n < 256 then some (UInt8.ofNat n.toNat) else none
  | _ => none

def flag? : Toml.Value → Option Bool
  | .boolean b => some b
  | _ => none

/-- The configuration that a document gives, each missing member by its default. -/
def ofMembers? (ms : Toml.Members) : Option Config := do
  let d : Config := {}
  let cachePath ← member? ms "cache_path" d.cachePath text?
  let categoryCount ← member? ms "category_count" d.categoryCount count?
  let dumpPath ← member? ms "dump_path" d.dumpPath text?
  let debug ← member? ms "debug" d.debug flag?
  pure { d with cachePath, categoryCount, dumpPath, debug }

/-- The configuration that a text gives. -/
def parse? (text : String) : Option Config := Toml.parse? text >>= ofMembers?

/-- Whether the value of a variable says yes. -/
def saysYes (value : String) : Bool := value.toLower = "true" ∨ value = "1"

/-- Puts what the environment says in place of what the configuration says. A count that is no number
counts as not said. -/
def withEnvironment (c : Config) (env : Environment) : Config where
  configPath := c.configPath
  cachePath := (env "RUSTSCAPE_CACHE_PATH").getD c.cachePath
  categoryCount :=
    (((env "RUSTSCAPE_CATEGORY_COUNT").bind (numeral? 256)).map UInt8.ofNat).getD c.categoryCount
  dumpPath := (env "RUSTSCAPE_DUMP_PATH").getD c.dumpPath
  debug := ((env "RUSTSCAPE_DEBUG").map saysYes).getD c.debug

/-- The configuration itself, if it can be worked with. -/
def check (c : Config) : Except ConfigError Config :=
  if c.categoryCount = 0 then .error .noCategories
  else if c.cachePath.isEmpty then .error .noCachePath
  else .ok c

/-- The configuration in the file that a path leads to, if it leads anywhere. -/
def ofFile (files : FileTree) (path : String) : Except ConfigError Config :=
  match files.look? path with
  | none => .ok {}
  | some .folder => .error (.read path .folderFound)
  | some (.file contents) =>
    match String.fromUTF8? (ByteArray.mk contents.toArray) with
    | none => .error (.read path .notText)
    | some text =>
      match parse? text with
      | none => .error (.parse path)
      | some c => .ok c

/-- The file that the environment names for the configuration. -/
def path (env : Environment) : String := (env "RUSTSCAPE_CONFIG").getD defaultPath

/-- The configuration that files and environment give. -/
def load (files : FileTree) (env : Environment) : Except ConfigError Config := do
  let c ← ofFile files (path env)
  ({ c with configPath := path env }.withEnvironment env).check

end Config

end AssetCache
