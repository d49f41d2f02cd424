import DbRoute.Host

/-!
# URLs

    mysql://host:port,host:port/database?key=value&key=value

How a URL is taken apart, from its scheme to its query, and what it says as
properties.
-/

namespace DbRoute

/-! ## Schemes

How a URL starts says what kind of connection it asks for. A URL that starts
in no such way, whatever the case of its letters, is somebody else's.
-/

inductive Scheme where
  | plain
  /-- A plain connection to a server that a managed launcher runs. -/
  | launched
  | balanced
  | replicated
  deriving DecidableEq

namespace Scheme

def all : List Scheme := [plain, launched, balanced, replicated]

/-- The text that opens a URL. -/
def opening : Scheme → String
  | plain => "mysql://"
  | launched => "mysql:mxj://"
  | balanced => "mysql:loadbalance://"
  | replicated => "mysql:replication://"

def ofUrl? (url : String) : Option Scheme :=
  all.find? fun scheme => Text.startsIgnoringCase url.toList scheme.opening.toList

end Scheme

/-! ## Query parameters

A query is a list of pairs with ampersands between them; a pair is split at
its first equals sign. Pairs without a key or without a value say nothing. A
key is taken as it is written, a value is form-encoded, and of a repeated key
the last value counts.
-/

namespace Query

/-- The parameter in one piece of a query. -/
def parameter? (piece : List Char) : Option Pair :=
  match piece.span (· != '=') with
  | (c :: key, _ :: v :: value) =>
      some (String.ofList (c :: key), Text.formDecode (String.ofList (v :: value)))
  | _ => none

def parameters (query : String) : Properties :=
  .ofList ((Text.pieces '&' query.toList).filterMap parameter?)

end Query

/-! ## Parts of a URL

A URL names its hosts, perhaps a database, and parameters. The query starts at
the first question mark, and the database behind the first slash before it
that is not in quotation marks.

As properties, the parameters come first and what the URL itself says is
written over them, so that no parameter can change a host, the number of
hosts, or a database that the URL names.
-/

structure UrlParts where
  scheme : Scheme
  hosts : List Host
  database : Option String
  parameters : Properties
  deriving DecidableEq

namespace UrlParts

/-- The socket factory of connections to a managed launcher. -/
def launcherFactory := "myriad.mxj.ServerLauncherSocketFactory"

/-- The location and the query of a URL behind its scheme. -/
def splitQuery (s : List Char) : List Char × Option (List Char) :=
  match s.span (· != '?') with
  | (location, _ :: query) => (location, some query)
  | (location, []) => (location, none)

/-- The host list and the database of a location; an empty path names no database. -/
def splitPath (location : List Char) : List Char × Option (List Char) :=
  match Text.cut? '/' location with
  | some (segment, []) => (segment, none)
  | some (segment, path) => (segment, some path)
  | none => (location, none)

/-- The parts of the text behind the opening of a URL. -/
def ofRest (scheme : Scheme) (rest : List Char) : Except Fault UrlParts := do
  let (location, query) := splitQuery rest
  let (segment, database) := splitPath location
  return {
    scheme
    hosts := ← Host.readList (String.ofList segment)
    database := database.map String.ofList
    parameters := (query.map fun q => Query.parameters (String.ofList q)).getD ∅ }

/-- The parts of a URL; none if its scheme is not known. -/
def read (url : String) : Except Fault (Option UrlParts) :=
  match Scheme.ofUrl? url with
  | none => .ok none
  | some scheme => (ofRest scheme (url.toList.drop scheme.opening.length)).map some

/-- What a scheme presets. -/
def preset : Scheme → List Pair
  | .launched => [(Key.socketFactory, launcherFactory)]
  | _ => []

/-- The parameters, but for a number of hosts. -/
def parameterPairs (u : UrlParts) : List Pair :=
  u.parameters.pairs.filter fun pair => pair.1 ≠ Key.hostCount

/-- The name and the port of every host, counted from `n`. -/
def indexedPairs (n : Nat) : List Host → List Pair
  | [] => []
  | h :: hosts =>
      (Key.indexedHost n, h.name) :: (Key.indexedPort n, h.port) :: indexedPairs (n + 1) hosts

/-- The name and the port of the first host. -/
def firstHostPairs : List Host → List Pair
  | [] => []
  | h :: _ => [(Key.host, h.name), (Key.port, h.port)]

def databasePairs : Option String → List Pair
  | some database => [(Key.database, database)]
  | none => []

/-- What the URL itself says, whatever its parameters say. -/
def ownPairs (u : UrlParts) : List Pair :=
  indexedPairs 1 u.hosts ++ (Key.hostCount, toString u.hosts.length) ::
    firstHostPairs u.hosts ++ databasePairs u.database

def properties (u : UrlParts) : Properties :=
  .ofList (preset u.scheme ++ u.parameterPairs ++ u.ownPairs)

end UrlParts

end DbRoute
