import AssetCache.Program.Failure
import AssetCache.Program.LogFilter
import AssetCache.Startup

/-! # The loading program

Decodes a whole cache and says how much there is. Debugging goes before what the environment says
about logging. -/

namespace AssetCache.Program

/-- The text of a failure of the loading program, followed by the texts of what caused it. -/
def loadMessages : Failure → List String
  | .load e => ("Cache error: " ++ e.message) :: (Failure.load e).messages
  | e => e.messages

/-- What the loading program logs its messages as: they have nothing but their text. -/
def logSource : LogSource := { target := "rustscape_cache", fields := ["message"] }

/-- Whether the loading program logs what it has loaded. -/
def logsSummary (env : Environment) (debug : Bool) : Bool :=
  debug || match (env "RUST_LOG").bind LogFilter.ofText? with
    | some filter => (filter.level logSource).informs
    | none => true

/-- The configuration and all that is in its cache. -/
def loadAssets (env : Environment) (files : FileTree) : Except Failure (Config × Assets) := do
  let config ← (Config.load files env).mapError Failure.config
  let assets ← (Assets.ofFiles files config.cachePath config.categoryCount).mapError Failure.load
  pure (config, assets)

/-- What the loading program says. -/
structure LoadOutcome where
  exitCode : UInt8 := 0
  loaded : Option String := none
  complaint : String := ""

/-- Runs the loading program. -/
def loadCache (env : Environment) (files : FileTree) : LoadOutcome :=
  match loadAssets env files with
  | .ok (config, assets) => { loaded := if logsSummary env config.debug then some assets.summary else none }
  | .error e => { exitCode := 1, complaint := report (loadMessages e) }

end AssetCache.Program
