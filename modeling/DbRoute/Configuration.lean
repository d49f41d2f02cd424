import DbRoute.Fault
import DbRoute.Toml.Document

/-!
# Configurations

A named configuration is a set of properties that a URL asks for by name. Some
are bundled with the library; others are held in memory or in files, and
loaders find them.
-/

namespace DbRoute

/-! ## Bundled configurations

The configurations that need no file.
-/

namespace Bundled

/-- Maximum performance for well-behaved applications. -/
def maxPerformance : List Pair :=
  [("cachePrepStmts", "true"), ("cacheCallableStmts", "true"),
    ("cacheServerConfiguration", "true"), ("useLocalSessionState", "true"),
    ("elideSetAutoCommits", "true"), ("alwaysSendSetIsolation", "false"),
    ("enableQueryTimeouts", "false")]

/-- Everything that a connection can tell about its own work. -/
def fullDebug : List Pair :=
  [("profileSQL", "true"), ("gatherPerfMetrics", "true"), ("useUsageAdvisor", "true"),
    ("logSlowQueries", "true"), ("explainSlowQueries", "true")]

/-- A baseline for clusters. -/
def clusterBase : List Pair :=
  [("autoReconnect", "true"), ("failOverReadOnly", "false"), ("roundRobinLoadBalance", "true")]

/-- Loaded on its own inside ColdFusion. -/
def coldFusion : List Pair :=
  [("useDynamicCharsetInfo", "false"), ("alwaysSendSetIsolation", "false"),
    ("useLocalSessionState", "true"), ("autoReconnect", "true")]

def configurations : List (String × Properties) :=
  [("maxPerformance", .ofList maxPerformance), ("fullDebug", .ofList fullDebug),
    ("clusterBase", .ofList clusterBase), ("coldFusion", .ofList coldFusion)]

def names : List String :=
  configurations.map (·.1)

end Bundled

/-! ## Configuration files

A configuration file is a TOML document of scalars. Its properties are the
entries in their order, each value in its text form. An array or a table is
no property: the first one in the file is what the file is refused for.
-/

/-- What is wrong with a text that is no TOML; at which place is left out. -/
def syntaxDefect : String := "TOML parse error"

/-- What is wrong with an array or a table under a key. -/
def scalarDefect (key : String) : String := s!"value of '{key}' must be a scalar"

/-- The property that an entry of a document is, or what is wrong with it. -/
def property? (entry : String × Toml.Content) : Except String Pair :=
  match entry.2 with
  | .scalar value => .ok (entry.1, value.text)
  | _ => .error (scalarDefect entry.1)

/-- The configuration that a text holds, or what is wrong with the text. -/
def readConfiguration (text : String) : Except String Properties :=
  match Toml.readDocument? text.toList with
  | none => .error syntaxDefect
  | some entries => (entries.mapM property?).map Properties.ofList

/-- The configuration that a text holds, under its name. -/
def loadText (name text : String) : Except LoadError Properties :=
  (readConfiguration text).mapError (.malformed name)

/-! ## Loaders

Where configurations come from: the bundled ones, ones held in memory, the
files of a directory, and chains of loaders, of which the first that knows a
name answers for it, be it with a failure. In a directory the configuration
`n` is the file `n.toml`, and a name never leads out of the directory.
-/

/-- What a directory holds under a name. -/
inductive FileContent where
  | bytes (content : ByteArray)
  | directory

inductive Loader where
  | bundled
  | memory (configurations : List (String × Properties))
  | directory (files : List (String × FileContent))
  | chain (loaders : List Loader)

namespace Loader

def lookUp (configurations : List (String × Properties)) : Lookup := fun name =>
  match configurations.lookup name with
  | some properties => .ok properties
  | none => .error (.notFound name)

/-- A name is the stem of a file: it holds no separator and is not hidden. -/
def isStem (name : String) : Bool :=
  match name.toList with
  | [] => false
  | c :: rest => c != '.' && (c :: rest).all fun x => x != '/' && x != '\\'

def fileName (name : String) : String := name ++ ".toml"

/-- The longest name of a file, in bytes. -/
def maxFileName : Nat := 255

def readFile (name : String) : FileContent → Except LoadError Properties
  | .directory => .error (.unreadable name "Is a directory (os error 21)")
  | .bytes content =>
      match String.fromUTF8? content with
      | some text => loadText name text
      | none => .error (.unreadable name "stream did not contain valid UTF-8")

def loadFile (files : List (String × FileContent)) : Lookup := fun name =>
  if !isStem name then .error (.notFound name)
  else if name.toList.any (·.toNat == 0) then
    .error (.unreadable name "file name contained an unexpected NUL byte")
  else if maxFileName < (fileName name).utf8ByteSize then
    .error (.unreadable name "File name too long (os error 36)")
  else
    match files.lookup (fileName name) with
    | none => .error (.notFound name)
    | some content => readFile name content

mutual

def load : Loader → Lookup
  | .bundled, name => lookUp Bundled.configurations name
  | .memory configurations, name => lookUp configurations name
  | .directory files, name => loadFile files name
  | .chain loaders, name => loadFirst loaders name

/-- The answer of the first loader that knows the name. -/
def loadFirst : List Loader → Lookup
  | [], name => .error (.notFound name)
  | loader :: rest, name =>
      match load loader name with
      | .error (.notFound _) => loadFirst rest name
      | answer => answer

end

end Loader

end DbRoute
