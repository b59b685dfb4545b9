/-
# Settings

How the tools work, as the environment says.
-/
import KsyTools.Failure
import KsyTools.Log.Routing
import KsyTools.Number.Literal

namespace KsyTools

/-- The settings of the tools. -/
structure Settings where
  logLevel : String
  printLevel : String
  cacheEnabled : Bool
  maxCacheSize : Int
  deriving Repr, DecidableEq

namespace Settings

/-- How many documents are kept if nothing else is said. -/
def defaultCacheSize : Int := 256

/-- The settings if nothing else is said. -/
def default : Settings :=
  ⟨"INFO", "WARNING", true, defaultCacheSize⟩

/-- The variable that says which records are logged. -/
def logLevelVariable : String := "KSY_DESIGNER_LOG_LEVEL"

/-- The variable that says which records go to the error output. -/
def printLevelVariable : String := "KSY_DESIGNER_PRINT_LEVEL"

/-- The variable that says whether documents are kept. -/
def cacheVariable : String := "KSY_DESIGNER_CACHE_ENABLED"

/-- The variable that says how many documents are kept. -/
def cacheSizeVariable : String := "KSY_DESIGNER_MAX_CACHE_SIZE"

/-- A whole number above zero from the environment; what is none is ignored with a warning. -/
def positiveNumber (name : String) (value? : Option String) (default : Int) :
    Int × List LogRecord :=
  match value? with
  | none => (default, [])
  | some raw =>
    let ignored (why : String) : Int × List LogRecord :=
      (default, [.warning "config" s!"Ignoring {name}={Text.quote raw}: {why}, using {default}"])
    match Number.readInt 10 raw with
    | .error _ => ignored "not an integer"
    | .ok n => if n < 1 then ignored "must be at least 1" else (n, [])

/-- The settings that an environment gives, and warnings about what it gives wrongly. -/
def ofEnvironment (value? : String → Option String) : Settings × List LogRecord :=
  let (maxCacheSize, warnings) :=
    positiveNumber cacheSizeVariable (value? cacheSizeVariable) defaultCacheSize
  ({ logLevel := (value? logLevelVariable).getD default.logLevel
     printLevel := (value? printLevelVariable).getD default.printLevel
     cacheEnabled := Text.lower ((value? cacheVariable).getD "true") = "true"
     maxCacheSize }, warnings)

/-- The level from which on records are logged. -/
def rootLevel (s : Settings) : Except Failure Int :=
  (NamedLevel.ofText s.logLevel 20).value.mapError .logLevel

/-- Where the command line tools write log records. -/
def commandRouting (s : Settings) : Except Failure LogRouting := do
  let level ← s.rootLevel
  let errorLevel ← (NamedLevel.ofText s.printLevel 30).comparable.mapError .logLevel
  return .split level errorLevel

/-- Where the language server writes log records. -/
def serverRouting (s : Settings) : Except Failure LogRouting := do
  return .errorOnly (← s.rootLevel)

/-- The source of the records of the command line tools themselves. -/
def commandSource : String := LogRecord.rootSource

/-- The source of the records of the language server itself. -/
def serverSource : String := LogRecord.rootSource ++ ".server"

end Settings

end KsyTools
