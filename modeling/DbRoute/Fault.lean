import DbRoute.Properties

/-!
# Faults and their reports

Everything that can go wrong between a URL and an established connection, and
what the user is told about it.
-/

namespace DbRoute

/-! ## Reports

What the user of a connection is told when something goes wrong: a code with
its SQL state, a message, and where they help the property concerned,
suggestions, further help, and the text of the error behind this one.
-/

inductive Code where
  | unableToConnect
  | closeFailed
  | invalidAttribute
  | insufficientHosts
  | internal
  deriving DecidableEq

namespace Code

/-- The first digit tells connections (3), configuration (7) and the library itself (9) apart. -/
def text : Code → String
  | unableToConnect => "M3001"
  | closeFailed => "M3002"
  | invalidAttribute => "M7003"
  | insufficientHosts => "M7004"
  | internal => "M9001"

def description : Code → String
  | unableToConnect => "Unable to connect"
  | closeFailed => "Connection close failed"
  | invalidAttribute => "Invalid connection attribute"
  | insufficientHosts => "Insufficient hosts"
  | internal => "Internal error"

def sqlState : Code → String
  | unableToConnect => "08001"
  | closeFailed => "08003"
  | invalidAttribute => "01S00"
  | insufficientHosts => "01S00"
  | internal => "S1000"

end Code

structure Report where
  code : Code
  message : String
  key : Option String := none
  suggestions : List String := []
  help : Option String := none
  source : Option String := none
  deriving DecidableEq

namespace Report

def withKey (r : Report) (key : String) : Report := { r with key := some key }

def withSuggestion (r : Report) (text : String) : Report :=
  { r with suggestions := r.suggestions ++ [text] }

def withHelp (r : Report) (text : String) : Report := { r with help := some text }

def withSource (r : Report) (text : String) : Report := { r with source := some text }

def invalidAttribute (message : String) : Report :=
  ⟨.invalidAttribute, message, none, [], none, none⟩

/-- A host with a colon and nothing behind it. -/
def danglingPort (token : String) : Report :=
  (invalidAttribute
      s!"Must specify port after ':' in connection string (found '{token}')").withSuggestion
    "Remove the trailing ':' or add a port number"

def missingConfiguration (name : String) : Report :=
  (invalidAttribute s!"Can't find configuration template named '{name}'").withKey
    Key.configurations

def unloadableConfiguration (name : String) : Report :=
  (invalidAttribute
      (s!"Unable to load configuration template '{name}' " ++
        "due to underlying I/O or format error")).withKey
    Key.configurations

def transformFailed (name reason : String) : Report :=
  ((invalidAttribute
        s!"Unable to create or apply properties transform '{name}': {reason}").withKey
      Key.transform).withHelp
    "Register the transform on the driver before connecting"

def hostCountMissing : Report :=
  (invalidAttribute "Host count is missing from the configuration").withKey Key.hostCount

def hostCountInvalid (raw : String) : Report :=
  (invalidAttribute s!"Host count '{raw}' is not a number").withKey Key.hostCount

def portInvalid (raw : String) : Report :=
  (invalidAttribute s!"Port '{raw}' is not a valid port number").withKey Key.port

def insufficientHosts (found : Nat) : Report :=
  Report.withKey
    ⟨.insufficientHosts,
      "Must specify at least one slave host to connect to for master/slave replication " ++
        s!"load-balancing functionality (found {found} host(s))",
      none, [], none, none⟩
    Key.hostCount

def unableToConnect (cause : String) : Report :=
  (Report.withSuggestion
      ⟨.unableToConnect, s!"Unable to establish connection: {cause}", none, [], none, none⟩
      "Check that the database server is running").withSource
    cause

def closeFailed (cause : String) : Report :=
  Report.withSource ⟨.closeFailed, s!"Connection close failed: {cause}", none, [], none, none⟩ cause

def internal (message : String) : Report :=
  ⟨.internal, s!"Internal error: {message}", none, [], none, none⟩

/-- The message behind its code. -/
def text (r : Report) : String := "[" ++ r.code.text ++ "] " ++ r.message

/-- Suggestions, numbered from `n` on, one on a line. -/
def numbered (n : Nat) : List String → String
  | [] => ""
  | suggestion :: rest => s!"  {n}. {suggestion}\n" ++ numbered (n + 1) rest

/-- Everything that is known, over several lines. -/
def fullText (r : Report) : String :=
  let line (label : String) : Option String → String
    | some text => label ++ text ++ "\n"
    | none => ""
  "Error [" ++ r.code.text ++ "]: " ++ r.message ++ "\n" ++ line "  → Key: " r.key ++
    line "  → Caused by: " r.source ++
    (if r.suggestions.isEmpty then "" else "\nSuggestions:\n" ++ numbered 1 r.suggestions) ++
    line "\nHelp: " r.help

end Report

/-! ## Failures to load a configuration

A configuration is asked for by its name. To load it may fail in three ways:
nobody knows the name, what has the name cannot be read, or it is read and is
no flat list of properties. Who fails to read it says why in words of its own.
-/

inductive LoadError where
  | notFound (name : String)
  | unreadable (name cause : String)
  | malformed (name defect : String)
  deriving DecidableEq

def LoadError.text : LoadError → String
  | notFound name => s!"Configuration '{name}' not found"
  | unreadable name cause => s!"Failed to read configuration '{name}': " ++ cause
  | malformed name defect => s!"Configuration '{name}' is malformed: " ++ defect

/-- Anything that answers for configurations by name. -/
abbrev Lookup := String → Except LoadError Properties

/-! ## Faults

Every fault by its cause, and the report that the cause makes.
-/

inductive Fault where
  /-- A host in a URL ends in a colon. -/
  | danglingPort (token : String)
  | unknownTransform (name : String)
  | transformFailed (name reason : String)
  | missingConfiguration (name : String)
  | unloadableConfiguration (name : String) (error : LoadError)
  | hostCountMissing
  | hostCountInvalid (raw : String)
  | portInvalid (raw : String)
  /-- A replicated connection has fewer than two hosts. -/
  | noSlave (found : Nat)
  /-- A load-balanced connection has no host. -/
  | nothingToBalance
  | unableToConnect (cause : String)
  | closeFailed (cause : String)
  deriving DecidableEq

namespace Fault

def report : Fault → Report
  | danglingPort token => .danglingPort token
  | unknownTransform name => .transformFailed name "no transform registered under this name"
  | transformFailed name reason => (Report.transformFailed name reason).withSource reason
  | missingConfiguration name => .missingConfiguration name
  | unloadableConfiguration name error =>
      (Report.unloadableConfiguration name).withSource error.text
  | hostCountMissing => .hostCountMissing
  | hostCountInvalid raw => .hostCountInvalid raw
  | portInvalid raw => .portInvalid raw
  | noSlave found => .insufficientHosts found
  | nothingToBalance =>
      (Report.insufficientHosts 0).withHelp "A load-balanced URL needs at least one host"
  | unableToConnect cause => .unableToConnect cause
  | closeFailed cause => .closeFailed cause

def code (f : Fault) : Code := f.report.code

end Fault

end DbRoute
