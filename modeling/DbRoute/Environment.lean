import DbRoute.Text

/-!
# Environment

What the process environment tells: whether the library runs inside an
application that it knows how to tune for, and what it is to log.
-/

namespace DbRoute

abbrev Environment := String → Option String

namespace Environment

def ofList (entries : List (String × String)) : Environment :=
  fun name => entries.lookup name

def contains (env : Environment) (name : String) : Bool :=
  (env name).isSome

end Environment

/-- An application that connections are tuned for. -/
inductive Embedding where
  | coldFusion
  deriving DecidableEq

namespace Embedding

/-- The variable that names the application. -/
def variableName := "MYRIAD_EMBEDDING_CONTEXT"

def spellings : List String := ["coldfusion", "cold-fusion"]

def detect? (env : Environment) : Option Embedding := do
  let value ← env variableName
  let name := Text.trim value.toList
  if spellings.any fun s => Text.sameIgnoringCase name s.toList then some coldFusion else none

def name : Embedding → String
  | coldFusion => "ColdFusion"

/-- The configuration that is loaded inside the application. -/
def configuration : Embedding → String
  | coldFusion => "coldFusion"

end Embedding

inductive LogFormat where
  | json
  | pretty
  | compact
  deriving DecidableEq

def LogFormat.name : LogFormat → String
  | json => "json"
  | pretty => "pretty"
  | compact => "compact"

inductive LogLevel where
  | trace
  | debug
  | info
  | warn
  | error
  deriving DecidableEq

namespace LogLevel

def name : LogLevel → String
  | trace => "trace"
  | debug => "debug"
  | info => "info"
  | warn => "warn"
  | error => "error"

def all : List LogLevel := [trace, debug, info, warn, error]

end LogLevel

/-- Words are told apart without regard to case. No letter outside ASCII has
one of the letters of these words as its small form, so ASCII case suffices. -/
structure LogSetup where
  debug : Bool
  chosenLevel : Option LogLevel
  format : LogFormat
  deriving DecidableEq

namespace LogSetup

def debugVariable := "MYRIAD_DEBUG"
def levelVariable := "MYRIAD_LOG_LEVEL"
def formatVariable := "MYRIAD_LOG_FORMAT"

/-- Whether a variable has one of the given words as its value. -/
def isWord (env : Environment) (name : String) (words : List String) : Bool :=
  match env name with
  | some value => words.any fun w => Text.sameIgnoringCase value.toList w.toList
  | none => false

def ofEnvironment (env : Environment) : LogSetup where
  debug := isWord env debugVariable ["true", "1", "yes"]
  chosenLevel := LogLevel.all.find? fun level => isWord env levelVariable [level.name]
  format :=
    if isWord env formatVariable [LogFormat.pretty.name] then .pretty
    else if isWord env formatVariable [LogFormat.compact.name] then .compact
    else .json

/-- The level in force: the explicit one, or else a default. -/
def level (s : LogSetup) : LogLevel :=
  s.chosenLevel.getD (if s.debug then .debug else .warn)

/-- Whether the environment asks for any logging. -/
def requested (s : LogSetup) : Bool :=
  s.debug || s.chosenLevel.isSome

end LogSetup

end DbRoute
