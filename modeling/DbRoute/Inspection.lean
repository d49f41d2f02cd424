import DbRoute.Configuration
import DbRoute.Driver

/-!
# Inspection

The texts by which the parts of a driver are shown to someone who debugs.
-/

namespace DbRoute

/-! ## Values

A text is shown in quotes with its control characters escaped, a list in
brackets, an optional value as `Some` or `None`, and a record as its name and
its fields. A record that keeps something back ends in two dots.
-/

namespace Inspect

def hexDigits (n : Nat) : String :=
  String.ofList (Nat.toDigits 16 n)

def escaped (c : Char) : String :=
  if c = '"' then "\\\""
  else if c = '\\' then "\\\\"
  else if c = '\n' then "\\n"
  else if c = '\r' then "\\r"
  else if c = '\t' then "\\t"
  else if c.toNat = 0 then "\\0"
  else if c.toNat < 0x20 ∨ c.toNat = 0x7F then "\\u\x7b" ++ hexDigits c.toNat ++ "\x7d"
  else String.singleton c

def quoted (s : String) : String :=
  "\"" ++ String.join (s.toList.map escaped) ++ "\""

def list (items : List String) : String :=
  "[" ++ String.intercalate ", " items ++ "]"

def option : Option String → String
  | some shown => "Some(" ++ shown ++ ")"
  | none => "None"

/-- The fields of a record by name, between braces. -/
def fields (shown : List (String × String)) : String :=
  String.intercalate ", " (shown.map fun field => field.1 ++ ": " ++ field.2)

/-- A record all of whose fields are shown. -/
def record (name : String) (shown : List (String × String)) : String :=
  name ++ " \x7b " ++ fields shown ++ " \x7d"

/-- A record that keeps further fields back. -/
def openRecord (name : String) (shown : List (String × String)) : String :=
  name ++ " \x7b " ++ fields shown ++ ", .. \x7d"

end Inspect

/-! ## Parts of a driver

Their texts tell names, counts and routes, and keep sessions and loaders back.
-/

open Inspect

def inspectChain (loaders : List Loader) : String :=
  record "ChainLoader" [("loaders", toString loaders.length)]

def Registry.inspect (r : Registry) : String :=
  record "TransformRegistry" [("transforms", list (r.names.map quoted))]

def Registrations.inspect (r : Registrations) : String :=
  record "AbandonedConnectionTracker"
    [("tracked", toString r.count), ("released", toString r.released)]

/-- A guard that is still there is armed. -/
def inspectGuard (id : Nat) : String :=
  record "TrackingGuard" [("id", toString id), ("armed", "true")]

def Roles.inspect (r : Roles) : String :=
  record "RoleAssignment"
    [("masters", list (r.masters.map quoted)), ("slaves", list (r.slaves.map quoted))]

def Strategy.inspect : Strategy → String
  | .direct host port database =>
      openRecord "Direct"
        [("host", quoted host), ("port", toString port), ("database", option (database.map quoted))]
  | .failover hosts => openRecord "Failover" [("hosts", list (hosts.map quoted))]
  | .loadBalanced hosts => openRecord "LoadBalanced" [("hosts", list (hosts.map quoted))]
  | .replicated roles => openRecord "Replicated" [("roles", roles.inspect)]

def Connection.inspect (c : Connection) : String :=
  record "Connection"
    [("strategy", c.strategy.inspect), ("tracking_id", option (c.trackingId.map toString))]

def Driver.inspect (d : Driver) (t : Tracking) : String :=
  openRecord "Driver"
    [("parser", openRecord "UrlParser" [("transforms", d.context.transforms.inspect)]),
      ("tracker", option (if d.tracks then some t.registrations.inspect else none))]

/-- A driver that is still to be built tracks its connections unless told otherwise. -/
def inspectBuilder (transforms : Registry) : String :=
  openRecord "DriverBuilder" [("transforms", transforms.inspect), ("tracking", "true")]

end DbRoute
