import DbRoute.Proofs.Precedence
import DbRoute.Proofs.Url.OwnProperties

/-!
# Who steers a resolution

Which transform runs, and whether the configuration of an application is added,
is looked up before the layers meet, and in the URL's layer first. As long as
the URL and the caller do not say different things, that is no other than the
order in which the layers count. But where the URL says something, what the
caller says about the same is written to the result, as every override is, and
has no further effect.
-/

namespace DbRoute

open Properties Outcome

namespace Resolution

variable {layer overrides : Properties} {key name : String}

/-! ## Two orders of looking up -/

/-- The caller's value, or else that of the layer below: the order of the layers. -/
def callerFirst? (layer overrides : Properties) (key : String) : Option String :=
  overrides.get? key <|> layer.get? key

/-- The layer and the overrides do not give different values to the key. -/
def Agree (layer overrides : Properties) (key : String) : Prop :=
  ∀ value ∈ layer.get? key, ∀ other ∈ overrides.get? key, value = other

theorem steering?_eq_callerFirst?_iff :
    steering? layer overrides key = callerFirst? layer overrides key ↔
      Agree layer overrides key := by
  unfold steering? callerFirst? Agree
  cases layer.get? key <;> cases overrides.get? key <;> simp

/-- What the caller says of one key matters to no other key, nor to the key
itself if the layer has it. -/
theorem steering?_set (h : name ≠ key ∨ layer.get? name ≠ none) (value : String) :
    steering? layer (overrides.set key value) name = steering? layer overrides name := by
  unfold steering?
  rcases h with hne | hlayer
  · rw [get?_set, if_neg hne]
  · obtain ⟨own, hown⟩ := Option.ne_none_iff_exists'.mp hlayer
    rw [hown]
    rfl

/-! ## The two steps before the merge -/

/-- Whether a setting is on, which it is unless something else is said. -/
def isOn (setting? : Option String) : Bool :=
  Text.sameIgnoringCase (Text.trim (setting?.getD "true").toList) "true".toList

/-- The layer with the configuration of the application in its list. -/
def extended (env : Environment) (layer overrides : Properties) : Properties :=
  match Embedding.detect? env with
  | none => layer
  | some embedding =>
      match withConfiguration (steering? layer overrides Key.configurations)
          embedding.configuration with
      | some names => layer.set Key.configurations names
      | none => layer

theorem addEmbedding_eq (env : Environment) (layer overrides : Properties) :
    addEmbedding env layer overrides =
      if isOn (steering? layer overrides Key.autoEmbedding) then extended env layer overrides
      else layer := rfl

theorem transformed_congr {other : Properties}
    (h : steering? layer other Key.transform = steering? layer overrides Key.transform)
    (transforms : Registry) :
    transformed transforms layer other = transformed transforms layer overrides := by
  rw [transformed, transformed, h]

theorem addEmbedding_congr {other : Properties}
    (hauto : steering? layer other Key.autoEmbedding =
      steering? layer overrides Key.autoEmbedding)
    (hnames : steering? layer other Key.configurations =
      steering? layer overrides Key.configurations) (env : Environment) :
    addEmbedding env layer other = addEmbedding env layer overrides := by
  rw [addEmbedding_eq, addEmbedding_eq, hauto, extended, extended, hnames]

/-! ## What an override does to the merge -/

/-- An override is written to the result, and no more is done with it unless it
tells the configurations or the number of hosts. -/
theorem merge_set (load : Lookup) (layer overrides : Properties)
    (hnames : key ≠ Key.configurations) (hcount : key ≠ Key.hostCount) (value : String) :
    merge load layer (overrides.set key value) =
      (merge load layer overrides).map (·.set key value) := by
  have heffective : effectiveNames? layer (overrides.set key value) =
      effectiveNames? layer overrides := by
    rw [effectiveNames?, effectiveNames?, get?_set, if_neg (Ne.symm hnames)]
  have hwrite : ∀ base : Properties, base.setAll (overridePairs (overrides.set key value)) =
      (base.setAll (overridePairs overrides)).set key value := by
    intro base
    show base.overlay ((overrides.set key value).erase Key.hostCount) = _
    rw [erase_set hcount, overlay_set]
    rfl
  unfold merge
  rw [heffective]
  simp only [hwrite]
  cases effectiveNames? layer overrides with
  | none => rfl
  | some names =>
      dsimp only
      cases loadAll load names <;> rfl

end Resolution

namespace Context

open Resolution

variable {c : Context} {url key : String} {overrides : Properties} {u : UrlParts}

/-! ## Resolution by a given way of looking up -/

/-- The URL's layer, if what steers its two steps is looked up in the given way. -/
def urlLayerBy (c : Context) (look : Properties → Properties → String → Option String)
    (u : UrlParts) (overrides : Properties) : Except Fault Properties :=
  let transformed :=
    match look u.properties overrides Key.transform with
    | some name => c.transforms.apply name u.properties
    | none => .ok u.properties
  transformed.map fun layer =>
    if isOn (look layer overrides Key.autoEmbedding) then
      extended c.environment layer overrides
    else layer

/-- The settings of a connection, with such a layer of the URL's. -/
def resolveBy (c : Context) (look : Properties → Properties → String → Option String)
    (url : String) (overrides : Properties) : Except Fault (Option Properties) := do
  match ← UrlParts.read url with
  | none => return none
  | some u =>
      let layer ← c.urlLayerBy look u overrides
      return some (← merge c.load layer overrides)

/-- Where the URL and the caller agree, the caller might as well come first. -/
theorem urlLayer_eq_callerFirst (htransform : Agree u.properties overrides Key.transform)
    (hauto : ∀ layer, transformed c.transforms u.properties overrides = .ok layer →
      Agree layer overrides Key.autoEmbedding) :
    c.urlLayer u overrides = c.urlLayerBy callerFirst? u overrides := by
  unfold urlLayer urlLayerBy
  rw [← steering?_eq_callerFirst?_iff.mpr htransform]
  show (transformed c.transforms u.properties overrides).map _ =
    (transformed c.transforms u.properties overrides).map _
  apply map_congr_ok
  intro layer hlayer
  rw [addEmbedding_eq, steering?_eq_callerFirst?_iff.mpr (hauto layer hlayer)]

theorem resolve_eq_callerFirst (hread : UrlParts.read url = .ok (some u))
    (htransform : Agree u.properties overrides Key.transform)
    (hauto : ∀ layer, transformed c.transforms u.properties overrides = .ok layer →
      Agree layer overrides Key.autoEmbedding) :
    c.resolve url overrides = c.resolveBy callerFirst? url overrides := by
  rw [resolve, resolveBy, hread]
  show (c.urlLayer u overrides >>= _) = (c.urlLayerBy callerFirst? u overrides >>= _)
  rw [urlLayer_eq_callerFirst htransform hauto]

/-! ## Overrides without a say -/

/-- An override that does not reach the URL's layer is written to the result alone. -/
theorem resolve_set_of_urlLayer {value : String} (hread : UrlParts.read url = .ok (some u))
    (hnames : key ≠ Key.configurations) (hcount : key ≠ Key.hostCount)
    (hlayer : c.urlLayer u (overrides.set key value) = c.urlLayer u overrides) :
    c.resolve url (overrides.set key value) =
      (c.resolve url overrides).map (Option.map (·.set key value)) := by
  rw [resolve, resolve, hread]
  show (c.urlLayer u (overrides.set key value) >>= _) = (c.urlLayer u overrides >>= _).map _
  rw [hlayer]
  cases c.urlLayer u overrides with
  | error fault => rfl
  | ok layer =>
      show (merge c.load layer (overrides.set key value) >>= _) =
        (merge c.load layer overrides >>= _).map _
      rw [merge_set c.load layer overrides hnames hcount]
      cases merge c.load layer overrides <;> rfl

/-- The overrides matter to the URL's layer by what its two steps look up, and by that alone. -/
theorem urlLayer_congr {other : Properties}
    (htransform : steering? u.properties other Key.transform =
      steering? u.properties overrides Key.transform)
    (hembedding : ∀ layer, transformed c.transforms u.properties overrides = .ok layer →
      addEmbedding c.environment layer other = addEmbedding c.environment layer overrides) :
    c.urlLayer u other = c.urlLayer u overrides := by
  rw [urlLayer, urlLayer, transformed_congr htransform]
  exact map_congr_ok hembedding

/-- If the URL names a transform, the caller's has no say. -/
theorem urlLayer_set_transform (h : u.properties.get? Key.transform ≠ none) (value : String) :
    c.urlLayer u (overrides.set Key.transform value) = c.urlLayer u overrides := by
  apply urlLayer_congr
  · exact steering?_set (Or.inr h) value
  · intro layer _
    exact addEmbedding_congr (steering?_set (Or.inl (by decide)) value)
      (steering?_set (Or.inl (by decide)) value) _

/-- If the URL's layer has the switch for the application, the caller's has no say. -/
theorem urlLayer_set_autoEmbedding
    (h : ∀ layer, transformed c.transforms u.properties overrides = .ok layer →
      layer.get? Key.autoEmbedding ≠ none) (value : String) :
    c.urlLayer u (overrides.set Key.autoEmbedding value) = c.urlLayer u overrides := by
  apply urlLayer_congr
  · exact steering?_set (Or.inl (by decide)) value
  · intro layer hlayer
    exact addEmbedding_congr (steering?_set (Or.inr (h layer hlayer)) value)
      (steering?_set (Or.inl (by decide)) value) _

/-- What steers a resolution is the URL's to say, and the caller's only where
the URL is silent. If neither contradicts the other, then the order of the
layers holds, with the caller's value before the URL's. But if the URL names a
transform, or if its layer has the switch for the application, then an override
of the same key is written to the result, and that is all it does. -/
theorem resolve_steered_by_url (c : Context) (url : String) (overrides : Properties)
    (u : UrlParts) (hread : UrlParts.read url = .ok (some u)) :
    (Agree u.parameters overrides Key.transform →
      (∀ layer, transformed c.transforms u.properties overrides = .ok layer →
        Agree layer overrides Key.autoEmbedding) →
      c.resolve url overrides = c.resolveBy callerFirst? url overrides) ∧
    (u.parameters.get? Key.transform ≠ none → ∀ value,
      c.resolve url (overrides.set Key.transform value) =
        (c.resolve url overrides).map (Option.map (·.set Key.transform value))) ∧
    ((∀ layer, transformed c.transforms u.properties overrides = .ok layer →
        layer.get? Key.autoEmbedding ≠ none) → ∀ value,
      c.resolve url (overrides.set Key.autoEmbedding value) =
        (c.resolve url overrides).map (Option.map (·.set Key.autoEmbedding value))) := by
  have hparameters : u.properties.get? Key.transform = u.parameters.get? Key.transform :=
    u.get?_properties_eq_parameters (by decide) (by decide)
  rw [Agree, ← hparameters]
  refine ⟨resolve_eq_callerFirst hread, ?_, ?_⟩
  · intro htransform value
    exact resolve_set_of_urlLayer hread (by decide) (by decide)
      (urlLayer_set_transform htransform value)
  · intro hauto value
    exact resolve_set_of_urlLayer hread (by decide) (by decide)
      (urlLayer_set_autoEmbedding hauto value)

/-- Two transforms that leave their names, inside ColdFusion. -/
def contested : Context where
  load := Loader.load .bundled
  transforms := ⟨[("url", Transform.ofEdits [.set "ran" "url"]),
    ("caller", Transform.ofEdits [.set "ran" "caller"])]⟩
  environment := .ofList [(Embedding.variableName, "coldfusion")]

/-- A URL that names a transform and switches the configuration of the application off. -/
def contestedUrl : String :=
  "mysql://h/db?propertiesTransform=url&autoConfigureForEmbedding=false"

/-- The caller's word on either is in the result, and what the URL says is done. -/
theorem resolve_steered_by_url_contested :
    (∃ r, contested.resolve contestedUrl (Properties.set ∅ Key.transform "caller") =
        .ok (some r) ∧
      r.get? Key.transform = some "caller" ∧ r.get? "ran" = some "url") ∧
    ∃ r, contested.resolve contestedUrl (Properties.set ∅ Key.autoEmbedding "true") =
        .ok (some r) ∧
      r.get? Key.autoEmbedding = some "true" ∧ "useDynamicCharsetInfo" ∉ r.keys := by
  have hread : UrlParts.read contestedUrl = .ok (some
      ⟨.plain, [⟨"h", "3306", none⟩], some "db",
        ofList [(Key.transform, "url"), (Key.autoEmbedding, "false")]⟩) := by decide +kernel
  have hresolve : contested.resolve contestedUrl ∅ =
      .ok (some (ofList [(Key.transform, "url"), (Key.autoEmbedding, "false"), ("host.1", "h"),
        ("port.1", "3306"), (Key.hostCount, "1"), (Key.host, "h"), (Key.port, "3306"),
        (Key.database, "db"), ("ran", "url")])) := by decide +kernel
  obtain ⟨_, htransform, hauto⟩ := resolve_steered_by_url contested contestedUrl ∅ _ hread
  have hnamed := htransform (by decide +kernel) "caller"
  have hswitched := hauto (fun layer hlayer => ?_) "true"
  · rw [hresolve] at hnamed hswitched
    exact ⟨⟨_, hnamed, by decide +kernel, by decide +kernel⟩,
      ⟨_, hswitched, by decide +kernel, by decide +kernel⟩⟩
  · obtain rfl := Except.ok.inj (Eq.trans (Eq.symm hlayer) rfl)
    decide +kernel

/-- The caller names another transform than the URL, or switches on what the
URL switches off: the URL has its way, and not the caller. -/
theorem resolve_ne_callerFirst :
    contested.resolve "mysql://h/db?propertiesTransform=url"
        (ofList [(Key.transform, "caller")]) ≠
      contested.resolveBy callerFirst? "mysql://h/db?propertiesTransform=url"
        (ofList [(Key.transform, "caller")]) ∧
    contested.resolve "mysql://h/db?autoConfigureForEmbedding=false"
        (ofList [(Key.autoEmbedding, "true")]) ≠
      contested.resolveBy callerFirst? "mysql://h/db?autoConfigureForEmbedding=false"
        (ofList [(Key.autoEmbedding, "true")]) := by
  constructor
  · decide +kernel
  · decide +kernel

end Context

end DbRoute
