import DbRoute.Resolution

/-!
# Catalogue

What a tool may ask its user for before it connects: the five essential
properties first, then the other properties that are known, each with its
value or its default.
-/

namespace DbRoute

structure Prompt where
  name : String
  value : Option String
  required : Bool
  description : String
  /-- The values allowed, if not every value is. -/
  choices : Option (List String)
  deriving DecidableEq

/-- A property that is known beyond the essential ones. -/
structure CatalogueEntry where
  name : String
  default : Option String
  description : String
  /-- The values allowed; none are listed where every value is. -/
  choices : List String

namespace Catalogue

def truthValues : List String := ["true", "false"]

def known : List CatalogueEntry :=
  [⟨Key.configurations, none,
      "Comma-separated named configurations to load before URL and caller values", []⟩,
    ⟨Key.transform, none,
      "Name of a registered transform applied to the URL-derived properties", []⟩,
    ⟨Key.autoEmbedding, some "true",
      "Load the embedding host's named configuration when one is detected", truthValues⟩,
    ⟨Key.roundRobin, some "false",
      "Rotate through failover hosts instead of always starting with the first", truthValues⟩,
    ⟨Key.socketFactory, none,
      "Name of the socket factory used to open server connections", []⟩,
    ⟨"connectTimeout", some "0", "Socket connect timeout in milliseconds, 0 for none", []⟩,
    ⟨"socketTimeout", some "0", "Socket read timeout in milliseconds, 0 for none", []⟩,
    ⟨"autoReconnect", some "false",
      "Reconnect transparently when a connection goes stale", truthValues⟩,
    ⟨"failOverReadOnly", some "true",
      "Put a failed-over connection into read-only mode", truthValues⟩,
    ⟨"characterEncoding", none, "Character encoding used for the session", []⟩,
    ⟨"sslMode", some "PREFERRED", "Transport security requirement",
      ["DISABLED", "PREFERRED", "REQUIRED", "VERIFY_CA", "VERIFY_IDENTITY"]⟩,
    ⟨"cachePrepStmts", some "false",
      "Cache server-side prepared statements per connection", truthValues⟩,
    ⟨"useLocalSessionState", some "false",
      "Track autocommit and isolation locally instead of querying the server", truthValues⟩,
    ⟨"profileSQL", some "false", "Log query timings", truthValues⟩]

def essentials (p : Properties) : List Prompt :=
  [⟨Key.host, p.get? Key.host, true, "Hostname of the database server", none⟩,
    ⟨Key.port, some ((p.get? Key.port).getD (toString defaultPort)), false,
      "Port number of the database server", none⟩,
    ⟨Key.database, p.get? Key.database, false, "Database name", none⟩,
    ⟨Key.user, p.get? Key.user, true, "Username to authenticate as", none⟩,
    ⟨Key.password, p.get? Key.password, true, "Password to use for authentication", none⟩]

def info (p : Properties) (k : CatalogueEntry) : Prompt where
  name := k.name
  value := p.get? k.name <|> k.default
  required := false
  description := k.description
  choices := if k.choices.isEmpty then none else some k.choices

def listing (p : Properties) : List Prompt :=
  essentials p ++ known.map (info p)

end Catalogue

/-- The properties to ask for before connecting to a URL. Only a standard URL
is resolved for its values; for any other the overrides alone supply them. -/
def Context.prompts (c : Context) (url : String) (overrides : Properties) :
    Except Fault (List Prompt) :=
  if Scheme.ofUrl? url = some .plain then
    (c.resolve url overrides).map fun resolved => Catalogue.listing (resolved.getD ∅)
  else .ok (Catalogue.listing overrides)

end DbRoute
