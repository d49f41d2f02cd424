import DbRoute.Environment
import DbRoute.Settings
import DbRoute.Transform
import DbRoute.Url

/-!
# Resolution

The settings of a connection come in layers: what the URL says, the
configurations that it or the caller names, under the URL, and the caller's
overrides on top of all. The number of hosts alone is always the URL's.

Before the layers meet, a transform may change those of the URL, and inside
an application that is known its configuration is added to those named. What
steers these two steps is looked up in the URL first and then in the
overrides; the names of the configurations, once more, in the overrides first.
-/

namespace DbRoute

/-- What resolution draws on. -/
structure Context where
  load : Lookup
  transforms : Registry := {}
  environment : Environment := fun _ => none

namespace Resolution

/-- The names in a list of configurations. -/
def configurationNames (names : String) : List String :=
  ((Text.trimmedTokens ',' names.toList).filter (!·.isEmpty)).map String.ofList

def loadOne (load : Lookup) (name : String) : Except Fault Properties :=
  (load name).mapError fun
    | .notFound _ => .missingConfiguration name
    | error => .unloadableConfiguration name error

/-- The configurations named, in their order, each over those before it. -/
def loadAll (load : Lookup) (names : String) : Except Fault Properties :=
  (configurationNames names).foldlM
    (fun merged name => (loadOne load name).map merged.overlay) ∅

/-- The overrides, but for a number of hosts. -/
def overridePairs (overrides : Properties) : List Pair :=
  overrides.pairs.filter fun pair => pair.1 ≠ Key.hostCount

/-- The list of configurations that counts: the caller's, or else the URL's. -/
def effectiveNames? (urlLayer overrides : Properties) : Option String :=
  overrides.get? Key.configurations <|> urlLayer.get? Key.configurations

/-- All layers, each over those below it. -/
def merge (load : Lookup) (urlLayer overrides : Properties) : Except Fault Properties := do
  let base ←
    match effectiveNames? urlLayer overrides with
    | some names => (loadAll load names).map fun configured => configured.overlay urlLayer
    | none => pure urlLayer
  return base.setAll (overridePairs overrides)

/-- A setting that steers resolution itself. -/
def steering? (urlLayer overrides : Properties) (key : String) : Option String :=
  urlLayer.get? key <|> overrides.get? key

/-- Whether the configuration of an application is to be added. -/
def embeddingEnabled (urlLayer overrides : Properties) : Bool :=
  let setting := (steering? urlLayer overrides Key.autoEmbedding).getD "true"
  Text.sameIgnoringCase (Text.trim setting.toList) "true".toList

/-- A list of configurations with one more name, unless the list has it already. -/
def withConfiguration (names? : Option String) (name : String) : Option String :=
  match names? with
  | none => some name
  | some names =>
      if name.toList ∈ Text.trimmedTokens ',' names.toList then none
      else if Text.allBlank names.toList then some name
      else some (names ++ "," ++ name)

/-- Adds the configuration of the application to those that the URL names. -/
def addEmbedding (env : Environment) (urlLayer overrides : Properties) : Properties :=
  if embeddingEnabled urlLayer overrides then
    match Embedding.detect? env with
    | none => urlLayer
    | some embedding =>
        let named := steering? urlLayer overrides Key.configurations
        match withConfiguration named embedding.configuration with
        | some names => urlLayer.set Key.configurations names
        | none => urlLayer
  else urlLayer

/-- Runs the transform that the URL or the overrides name. -/
def transformed (transforms : Registry) (urlLayer overrides : Properties) :
    Except Fault Properties :=
  match steering? urlLayer overrides Key.transform with
  | some name => transforms.apply name urlLayer
  | none => .ok urlLayer

end Resolution

namespace Context

open Resolution

/-- The URL's own layer of the settings, as the others are merged with it. -/
def urlLayer (c : Context) (parts : UrlParts) (overrides : Properties) : Except Fault Properties :=
  (transformed c.transforms parts.properties overrides).map fun layer =>
    addEmbedding c.environment layer overrides

/-- The settings of a connection; none if the URL is somebody else's. -/
def resolve (c : Context) (url : String) (overrides : Properties) :
    Except Fault (Option Properties) := do
  match ← UrlParts.read url with
  | none => return none
  | some parts =>
      let layer ← c.urlLayer parts overrides
      return some (← merge c.load layer overrides)

/-- Whether a URL has a known scheme and settings that resolve. -/
def accepts (c : Context) (url : String) : Bool :=
  match c.resolve url ∅ with
  | .ok (some _) => true
  | _ => false

end Context

end DbRoute
