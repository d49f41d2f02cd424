import DbRoute.Proofs.Routing
import DbRoute.Proofs.Steering

/-!
# Whatever the scheme

The scheme of a URL tells how the settings are used and not what they are. Behind
its opening every URL is read alike, and of the settings the scheme gives no more
than a socket factory, at the bottom of the URL's layer, to a connection through a
launcher. It stays the only difference all the way up, as no other setting is
decided by it. A transform alone could have it decide more.
-/

namespace DbRoute

open Properties Outcome

/-! ## Reading -/

namespace UrlParts

variable {url : String} {scheme : Scheme} {rest : List Char}

/-- The parameters in the text behind the opening of a URL. -/
def parametersOf (rest : List Char) : Properties :=
  ((splitQuery rest).2.map fun q => Query.parameters (String.ofList q)).getD ∅

theorem opens_append (scheme : Scheme) (t : String) :
    Opens (scheme.opening ++ t) scheme t.toList := by
  refine ⟨scheme.opening.toList, String.toList_append, ?_⟩
  rw [Text.sameIgnoringCase_iff]

/-- Nothing is read by its scheme. -/
theorem ofRest_eq_map (scheme : Scheme) (rest : List Char) :
    ofRest scheme rest = (ofRest .plain rest).map fun u => { u with scheme } := by
  unfold ofRest
  obtain ⟨location, query⟩ := splitQuery rest
  dsimp only
  obtain ⟨segment, database⟩ := splitPath location
  dsimp only
  cases Host.readList (String.ofList segment) <;> rfl

theorem properties_of_ne_launched (u : UrlParts) (h : scheme ≠ .launched) :
    { u with scheme }.properties = { u with scheme := .plain }.properties := by
  cases scheme with
  | launched => exact absurd rfl h
  | plain | balanced | replicated => rfl

theorem properties_launched (u : UrlParts) :
    { u with scheme := .launched }.properties =
      (ofList [(Key.socketFactory, launcherFactory)]).overlay
        { u with scheme := .plain }.properties :=
  ofList_append (preset .launched) (u.parameterPairs ++ u.ownPairs)

/-- But for the socket factory a launcher makes no difference. -/
theorem erase_properties_launched (u : UrlParts) :
    { u with scheme := .launched }.properties.erase Key.socketFactory =
      { u with scheme := .plain }.properties.erase Key.socketFactory := by
  have hfactory : (ofList [(Key.socketFactory, launcherFactory)]).erase Key.socketFactory = ∅ := by
    decide
  rw [properties_launched, erase_overlay, hfactory, empty_overlay]

end UrlParts

/-! ## Layers that differ in one key -/

namespace Resolution

variable {layer other overrides : Properties} {key name : String}

theorem steering?_of_erase_eq (h : layer.erase key = other.erase key) (hne : name ≠ key) :
    steering? layer overrides name = steering? other overrides name := by
  rw [steering?, steering?, get?_eq_of_erase_eq h hne]

/-- A key that steers nothing makes no difference to the configuration of an application. -/
theorem erase_addEmbedding (h : layer.erase key = other.erase key)
    (hauto : Key.autoEmbedding ≠ key) (hnames : Key.configurations ≠ key)
    (env : Environment) :
    (addEmbedding env layer overrides).erase key =
      (addEmbedding env other overrides).erase key := by
  rw [addEmbedding_eq, addEmbedding_eq, steering?_of_erase_eq h hauto, extended, extended,
    steering?_of_erase_eq h hnames]
  split
  · split
    · exact h
    · split
      · rw [erase_set hnames, erase_set hnames, h]
      · exact h
  · exact h

/-- Nor to any other key when the layers are merged. -/
theorem map_erase_merge (h : layer.erase key = other.erase key) (hnames : Key.configurations ≠ key)
    (load : Lookup) :
    (merge load layer overrides).map (·.erase key) =
      (merge load other overrides).map (·.erase key) := by
  have hover : ∀ base base' : Properties, base.erase key = base'.erase key →
      (base.setAll (overridePairs overrides)).erase key =
        (base'.setAll (overridePairs overrides)).erase key := by
    intro base base' hbase
    show (base.overlay (overrides.erase Key.hostCount)).erase key =
      (base'.overlay (overrides.erase Key.hostCount)).erase key
    rw [erase_overlay, erase_overlay, hbase]
  unfold merge
  rw [effectiveNames?, effectiveNames?, get?_eq_of_erase_eq h hnames]
  cases overrides.get? Key.configurations <|> other.get? Key.configurations with
  | none => exact congrArg Except.ok (hover layer other h)
  | some names =>
      dsimp only
      cases loadAll load names with
      | error fault => rfl
      | ok configured =>
          refine congrArg Except.ok (hover _ _ ?_)
          rw [erase_overlay, erase_overlay, h]

end Resolution

/-! ## Resolution -/

namespace Context

open Resolution UrlParts

variable {c : Context} {overrides r : Properties} {scheme : Scheme} {u : UrlParts}

/-- What is left to do when a URL has been read. -/
def settle (c : Context) (u : UrlParts) (overrides : Properties) : Except Fault Properties :=
  c.urlLayer u overrides >>= fun layer => merge c.load layer overrides

/-- The text behind the opening of a scheme, read and settled. -/
def settleText (c : Context) (scheme : Scheme) (t : String) (overrides : Properties) :
    Except Fault Properties :=
  ofRest .plain t.toList >>= fun u => c.settle { u with scheme } overrides

theorem resolve_append (c : Context) (scheme : Scheme) (t : String) (overrides : Properties) :
    c.resolve (scheme.opening ++ t) overrides = (c.settleText scheme t overrides).map some := by
  rw [resolve, settleText, read_of_opens (opens_append scheme t), ofRest_eq_map]
  cases ofRest .plain t.toList with
  | error fault => rfl
  | ok u =>
      show (c.urlLayer { u with scheme } overrides >>= fun layer =>
        merge c.load layer overrides >>= fun p => pure (some p)) =
          (c.settle { u with scheme } overrides).map some
      rw [settle]
      cases c.urlLayer { u with scheme } overrides with
      | error fault => rfl
      | ok layer => cases merge c.load layer overrides <;> rfl

theorem settle_of_ne_launched (h : scheme ≠ .launched) (u : UrlParts) :
    c.settle { u with scheme } overrides = c.settle { u with scheme := .plain } overrides := by
  rw [settle, settle, urlLayer, urlLayer, properties_of_ne_launched u h]

/-- Without a transform a launcher makes no difference but in the socket factory. -/
theorem map_erase_settle_launched (hparameters : u.parameters.get? Key.transform = none)
    (htransform : overrides.get? Key.transform = none) :
    (c.settle { u with scheme := .launched } overrides).map (·.erase Key.socketFactory) =
      (c.settle { u with scheme := .plain } overrides).map (·.erase Key.socketFactory) := by
  rw [settle, settle, urlLayer_of_no_transform (by exact hparameters) htransform,
    urlLayer_of_no_transform (by exact hparameters) htransform]
  exact map_erase_merge
    (erase_addEmbedding u.erase_properties_launched (by decide) (by decide) c.environment)
    (by decide) c.load

/-- The socket factory of a launcher counts where neither the caller nor the query has one,
whatever the configurations say. -/
theorem get?_socketFactory_of_settle_launched
    (hparameters : u.parameters.get? Key.transform = none)
    (htransform : overrides.get? Key.transform = none)
    (h : c.settle { u with scheme := .launched } overrides = .ok r) :
    r.get? Key.socketFactory =
      ((overrides.get? Key.socketFactory).or (u.parameters.get? Key.socketFactory)).or
        (some launcherFactory) := by
  rw [settle, urlLayer_of_no_transform (by exact hparameters) htransform] at h
  obtain ⟨configurations, _, rfl⟩ := merge_eq_ok.mp h
  have hproperties : { u with scheme := .launched }.properties.get? Key.socketFactory =
      (u.parameters.get? Key.socketFactory).or (some launcherFactory) := by
    rw [get?_properties, lookup_ownPairs_eq_none (by decide) (by decide), lookup_parameterPairs,
      if_neg (by decide), Option.none_or]
    rfl
  rw [get?_overlay, get?_erase, if_neg (by decide), get?_overlay,
    get?_addEmbedding _ _ _ (by decide), hproperties]
  cases overrides.get? Key.socketFactory <;> cases u.parameters.get? Key.socketFactory <;> rfl

theorem settleText_launched {t : String}
    (hparameters : (parametersOf t.toList).get? Key.transform = none)
    (htransform : overrides.get? Key.transform = none) :
    (c.settleText .launched t overrides).map (·.erase Key.socketFactory) =
      (c.settleText .plain t overrides).map (·.erase Key.socketFactory) ∧
    ∀ r, c.settleText .launched t overrides = .ok r →
      r.get? Key.socketFactory =
        ((overrides.get? Key.socketFactory).or
          ((parametersOf t.toList).get? Key.socketFactory)).or (some launcherFactory) := by
  unfold settleText
  cases hrest : ofRest .plain t.toList with
  | error fault => exact ⟨rfl, fun _ h => nomatch h⟩
  | ok u =>
      have hu : u.parameters = parametersOf t.toList := (ofRest_eq_ok.mp hrest).2.2.2
      rw [← hu] at hparameters ⊢
      exact ⟨map_erase_settle_launched hparameters htransform,
        fun _ h => get?_socketFactory_of_settle_launched hparameters htransform h⟩

/-- What a text resolves to behind the opening of a scheme, with what complaint or to which
properties in which order, is the same for all schemes but that of a launcher. Behind that
one, too, it is the same if neither the query nor the caller names a transform, the
properties but for the socket factory, and this is the caller's, or else the query's, or else
the launcher's. -/
theorem resolve_in_any_scheme (c : Context) (t : String) (overrides : Properties) :
    (∀ scheme : Scheme, c.resolve (scheme.opening ++ t) overrides ≠ .ok none) ∧
    (∀ scheme : Scheme, scheme ≠ .launched →
      c.resolve (scheme.opening ++ t) overrides =
        c.resolve (Scheme.plain.opening ++ t) overrides) ∧
    ((parametersOf t.toList).get? Key.transform = none →
      overrides.get? Key.transform = none →
      (∀ fault, c.resolve (Scheme.plain.opening ++ t) overrides = .error fault →
        c.resolve (Scheme.launched.opening ++ t) overrides = .error fault) ∧
      ∀ p, c.resolve (Scheme.plain.opening ++ t) overrides = .ok (some p) →
        ∃ r, c.resolve (Scheme.launched.opening ++ t) overrides = .ok (some r) ∧
          r.erase Key.socketFactory = p.erase Key.socketFactory ∧
          (∀ key, key ≠ Key.socketFactory → r.get? key = p.get? key) ∧
          r.get? Key.socketFactory =
            ((overrides.get? Key.socketFactory).or
              ((parametersOf t.toList).get? Key.socketFactory)).or (some launcherFactory)) := by
  refine ⟨?_, ?_, ?_⟩
  · intro scheme h
    rw [resolve_append] at h
    obtain ⟨_, _, hsome⟩ := map_eq_ok.mp h
    cases hsome
  · intro scheme hscheme
    rw [resolve_append, resolve_append, settleText, settleText]
    simp only [settle_of_ne_launched hscheme]
  · intro hparameters htransform
    obtain ⟨hsame, hfactory⟩ := settleText_launched (c := c) hparameters htransform
    simp only [resolve_append]
    refine ⟨fun fault h => ?_, fun p h => ?_⟩
    · rw [map_eq_error] at h ⊢
      exact map_eq_error.mp (hsame.trans (map_eq_error.mpr h))
    · obtain ⟨_, hp, ⟨⟩⟩ := map_eq_ok.mp h
      obtain ⟨r, hr, herase⟩ := map_eq_ok.mp (hsame.trans (map_eq_ok.mpr ⟨p, hp, rfl⟩))
      exact ⟨r, map_eq_ok.mpr ⟨r, hr, rfl⟩, herase, fun _ => get?_eq_of_erase_eq herase,
        hfactory r hr⟩

/-- A configuration that has a socket factory. -/
def ownFactory : Context where
  load := Loader.lookUp [("tuned", ofList [(Key.socketFactory, "own"), ("timeout", "9")])]

/-- The socket factory of the configuration is lost to the launcher's, and its timeout is not. -/
theorem resolve_in_any_scheme_ownFactory :
    (parametersOf "h/db?useConfigs=tuned".toList).get? Key.transform = none ∧
    ownFactory.resolve (Scheme.replicated.opening ++ "h/db?useConfigs=tuned") ∅ =
      ownFactory.resolve (Scheme.plain.opening ++ "h/db?useConfigs=tuned") ∅ ∧
    ∃ r, ownFactory.resolve (Scheme.launched.opening ++ "h/db?useConfigs=tuned") ∅ =
        .ok (some r) ∧
      r.get? Key.socketFactory = some launcherFactory ∧ r.get? "timeout" = some "9" := by
  obtain ⟨_, hscheme, hlaunched⟩ := resolve_in_any_scheme ownFactory "h/db?useConfigs=tuned" ∅
  have htransform : (parametersOf "h/db?useConfigs=tuned".toList).get? Key.transform = none := by
    decide +kernel
  have hplain : ownFactory.resolve (Scheme.plain.opening ++ "h/db?useConfigs=tuned") ∅ =
      .ok (some (ofList [(Key.socketFactory, "own"), ("timeout", "9"),
        (Key.configurations, "tuned"), ("host.1", "h"), ("port.1", "3306"),
        (Key.hostCount, "1"), (Key.host, "h"), (Key.port, "3306"), (Key.database, "db")])) := by
    decide +kernel
  obtain ⟨_, hok⟩ := hlaunched htransform rfl
  obtain ⟨r, hr, _, hother, hfactory⟩ := hok _ hplain
  refine ⟨htransform, hscheme .replicated (by decide), r, hr, hfactory.trans ?_, ?_⟩
  · decide +kernel
  · rw [hother "timeout" (by decide)]
    rfl

end Context

end DbRoute
