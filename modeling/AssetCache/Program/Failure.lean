import AssetCache.Config
import AssetCache.LoadError

/-! # Why a program fails

A failure is reported with everything that caused it, outermost first. -/

namespace AssetCache.Program

/-- Why a program failed. -/
inductive Failure
  | load (e : LoadError)
  | config (e : ConfigError)
  | create (path : String) (fault : FileFault)
deriving DecidableEq, Repr

/-- The text of a failure, followed by the texts of what caused it. -/
def Failure.messages : Failure → List String
  | load e => e.chain.map LoadError.message
  | config e => e.message :: e.causes
  | create path fault => [s!"Failed to create {path}", fault.message]

/-- A character as it is logged: those that a terminal would act on are spelled out. -/
def logged (c : Char) : List Char :=
  let n := c.toNat
  if c ∈ ['\x07', '\x08', '\x0c', '\x1b', '\x7f'] then '\\' :: 'x' :: hexDigits 2 n
  else if 0x80 ≤ n ∧ n < 0xA0 then '\\' :: 'u' :: '\x7b' :: hexDigits 2 n ++ ['\x7d']
  else [c]

/-- The text of a failure with all that caused it, as it is logged. -/
def logLine (messages : List String) : String :=
  String.ofList ((": ".intercalate messages).toList.flatMap logged)

/-- A text with its further lines as far to the right as `margin`. -/
def indent (margin text : String) : String := ("\n" ++ margin).intercalate (text.splitOn "\n")

/-- The report of a failure on lines of its own, its causes numbered if there are several. -/
def report : List String → String
  | [] => ""
  | [message] => s!"Error: {message}\n"
  | [message, cause] =>
    s!"Error: {message}\n\nCaused by:\n" ++ "    " ++ indent "    " cause ++ "\n"
  | message :: causes =>
    let line (cause : String) (n : Nat) := s!"    {n}: " ++ indent "       " cause ++ "\n"
    s!"Error: {message}\n\nCaused by:\n" ++ String.join (causes.zipIdx.map fun (cause, n) => line cause n)

end AssetCache.Program
