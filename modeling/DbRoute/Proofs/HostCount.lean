import DbRoute.Proofs.Routing

/-!
# Whose number of hosts counts

The number of hosts is the URL's to say. The overrides may speak of it, and
nothing comes of that. A configuration may speak of it as well, and nothing
comes of that either while the URL's layer has a number of its own. It has one
unless a transform takes it away; then the last configuration that has a number
supplies it.
-/

namespace DbRoute

open Properties Outcome

namespace Resolution

variable {load other : Lookup} {layer overrides changed r : Properties}

/-! ## Overrides -/

/-- Of two sets of overrides that differ in the number of hosts alone, one is as
good as the other. -/
theorem merge_congr_overrides
    (h : changed.erase Key.hostCount = overrides.erase Key.hostCount) (load : Lookup)
    (layer : Properties) : merge load layer changed = merge load layer overrides := by
  have hnames : effectiveNames? layer changed = effectiveNames? layer overrides := by
    rw [effectiveNames?, effectiveNames?, get?_eq_of_erase_eq h (by decide)]
  have hpairs : overridePairs changed = overridePairs overrides := congrArg pairs h
  rw [merge, merge, hnames, hpairs]

/-! ## Configurations -/

/-- Loaders that tell the same of every configuration, but for a number of hosts in it. -/
def AgreeButCount (load other : Lookup) : Prop :=
  ∀ name, (load name).map (·.erase Key.hostCount) = (other name).map (·.erase Key.hostCount)

theorem AgreeButCount.loadOne_eq (h : AgreeButCount load other) (name : String) :
    (loadOne load name).map (·.erase Key.hostCount) =
      (loadOne other name).map (·.erase Key.hostCount) := by
  rw [loadOne, loadOne, map_mapError, map_mapError, h name]

/-- The configurations that two such loaders give differ in the number of hosts
alone, over layers that do. -/
theorem AgreeButCount.foldlM_eq (h : AgreeButCount load other) (names : List String)
    {start start' : Properties}
    (hstart : start.erase Key.hostCount = start'.erase Key.hostCount) :
    (names.foldlM (fun merged name => (loadOne load name).map merged.overlay) start).map
        (·.erase Key.hostCount) =
      (names.foldlM (fun merged name => (loadOne other name).map merged.overlay) start').map
        (·.erase Key.hostCount) := by
  -- What has been merged so far differs in the number of hosts, too.
  induction names generalizing start start' with
  | nil => exact congrArg Except.ok hstart
  | cons name names ih =>
      have hone : ((loadOne load name).map start.overlay).map (·.erase Key.hostCount) =
          ((loadOne other name).map start'.overlay).map (·.erase Key.hostCount) := by
        rw [map_map, map_map]
        refine map_eq_map_of_agree (h.loadOne_eq name) fun p q _ _ hpq => ?_
        rw [erase_overlay, erase_overlay, hstart, hpq]
      rw [List.foldlM_cons, List.foldlM_cons, map_bind, map_bind]
      exact bind_eq_bind_of_agree hone fun _ _ hnext => ih hnext

/-- A resolution with one of two such loaders is that with the other, but for
the number of hosts. -/
theorem AgreeButCount.merge_eq (h : AgreeButCount load other) (layer overrides : Properties) :
    (merge load layer overrides).map (·.erase Key.hostCount) =
      (merge other layer overrides).map (·.erase Key.hostCount) := by
  unfold merge
  cases effectiveNames? layer overrides with
  | none => rfl
  | some names =>
      have hbase : ((loadAll load names).map (·.overlay layer)).map (·.erase Key.hostCount) =
          ((loadAll other names).map (·.overlay layer)).map (·.erase Key.hostCount) := by
        rw [map_map, map_map]
        refine map_eq_map_of_agree (h.foldlM_eq _ rfl) fun p q _ _ hpq => ?_
        rw [erase_overlay, erase_overlay, hpq]
      rw [map_bind, map_bind]
      refine bind_eq_bind_of_agree hbase fun p q hpq => congrArg Except.ok ?_
      show (p.overlay (overrides.erase Key.hostCount)).erase Key.hostCount =
        (q.overlay (overrides.erase Key.hostCount)).erase Key.hostCount
      rw [erase_overlay, erase_overlay, hpq]

/-! ## The number of hosts -/

theorem get?_hostCount_of_merge (h : merge load layer overrides = .ok r) :
    ∃ configurations, Loads load (namesInForce layer overrides) configurations ∧
      r.get? Key.hostCount =
        (layer.get? Key.hostCount).or (lastValue? configurations Key.hostCount) := by
  obtain ⟨configurations, hloads, rfl⟩ := merge_eq_ok.mp h
  refine ⟨configurations, hloads, ?_⟩
  rw [get?_overlay, get?_erase, if_pos rfl, Option.none_or, get?_overlay, get?_stack]

theorem get?_hostCount_of_layer (hlayer : layer.get? Key.hostCount ≠ none)
    (h : merge load layer overrides = .ok r) :
    r.get? Key.hostCount = layer.get? Key.hostCount := by
  obtain ⟨value, hvalue⟩ := Option.ne_none_iff_exists'.mp hlayer
  obtain ⟨configurations, _, hcount⟩ := get?_hostCount_of_merge h
  rw [hcount, hvalue, Option.some_or]

/-- With a number of its own the layer leaves the configurations no say in any value. -/
theorem AgreeButCount.map_get?_merge (h : AgreeButCount load other)
    (hlayer : layer.get? Key.hostCount ≠ none) (overrides : Properties) (key : String) :
    (merge load layer overrides).map (·.get? key) =
      (merge other layer overrides).map (·.get? key) := by
  refine map_eq_map_of_agree (h.merge_eq layer overrides) fun p q hp hq hpq => ?_
  by_cases hkey : key = Key.hostCount
  · subst hkey
    exact (get?_hostCount_of_layer hlayer hp).trans (get?_hostCount_of_layer hlayer hq).symm
  · exact get?_eq_of_erase_eq hpq hkey

/-- Whose number of hosts a merge gives. It is the number of the URL's layer, or
if that has none, the number of the last configuration in force that has one, so
it is the layer's if and only if the layer has a number or none of those
configurations does. What the overrides say of it changes nothing. What the
configurations say of it changes nothing else in the result, and no value at all
if the layer has a number of its own. -/
theorem hostCount_of_merge (load : Lookup) (layer overrides : Properties) :
    (∀ r, merge load layer overrides = .ok r →
      ∃ configurations, Loads load (namesInForce layer overrides) configurations ∧
        r.get? Key.hostCount =
          (layer.get? Key.hostCount).or (lastValue? configurations Key.hostCount) ∧
        (r.get? Key.hostCount = layer.get? Key.hostCount ↔
          layer.get? Key.hostCount ≠ none ∨
            ∀ p ∈ configurations, p.get? Key.hostCount = none)) ∧
    (∀ changed : Properties, changed.erase Key.hostCount = overrides.erase Key.hostCount →
      merge load layer changed = merge load layer overrides) ∧
    ∀ other, AgreeButCount load other →
      (merge load layer overrides).map (·.erase Key.hostCount) =
        (merge other layer overrides).map (·.erase Key.hostCount) ∧
      (layer.get? Key.hostCount ≠ none → ∀ key,
        (merge load layer overrides).map (·.get? key) =
          (merge other layer overrides).map (·.get? key)) := by
  refine ⟨?_, ?_, ?_⟩
  · intro r hr
    obtain ⟨configurations, hloads, hcount⟩ := get?_hostCount_of_merge hr
    refine ⟨configurations, hloads, hcount, ?_⟩
    rw [hcount]
    cases layer.get? Key.hostCount with
    | none => simp [lastValue?_eq_none_iff]
    | some value => simp
  · intro changed hchanged
    exact merge_congr_overrides hchanged load layer
  · intro other hother
    exact ⟨hother.merge_eq layer overrides,
      fun hlayer => hother.map_get?_merge hlayer overrides⟩

/-- A configuration that speaks of the number of hosts. -/
def counting : Lookup :=
  Loader.lookUp [("fast", ofList [("timeout", "200"), (Key.hostCount, "9")])]

/-- The same configuration without it. -/
def silent : Lookup :=
  Loader.lookUp [("fast", ofList [("timeout", "200")])]

theorem counting_agrees : AgreeButCount counting silent := by
  intro name
  by_cases hname : name = "fast"
  · subst hname
    decide +kernel
  · have hlookup : ∀ p : Properties, List.lookup name [("fast", p)] = none := by
      intro p
      rw [Pairs.lookup_cons_eq, if_neg hname, List.lookup_nil]
    simp only [counting, silent, Loader.lookUp, hlookup]

/-- The URL's layer, a configuration and the overrides all have a number: it is the layer's. -/
theorem hostCount_of_merge_contested :
    ∃ r, merge counting (ofList [(Key.hostCount, "1"), (Key.configurations, "fast")])
        (ofList [(Key.hostCount, "4"), ("z", "0")]) = .ok r ∧
      r.get? Key.hostCount = some "1" ∧
      merge counting (ofList [(Key.hostCount, "1"), (Key.configurations, "fast")])
        (ofList [("z", "0")]) = .ok r ∧
      (merge silent (ofList [(Key.hostCount, "1"), (Key.configurations, "fast")])
        (ofList [(Key.hostCount, "4"), ("z", "0")])).map (·.get? Key.hostCount) =
          .ok (some "1") := by
  have hmerge : merge counting (ofList [(Key.hostCount, "1"), (Key.configurations, "fast")])
      (ofList [(Key.hostCount, "4"), ("z", "0")]) =
        .ok (ofList [("timeout", "200"), (Key.hostCount, "1"), (Key.configurations, "fast"),
          ("z", "0")]) := by decide +kernel
  obtain ⟨hcount, hoverrides, hconfigurations⟩ := hostCount_of_merge counting
    (ofList [(Key.hostCount, "1"), (Key.configurations, "fast")])
    (ofList [(Key.hostCount, "4"), ("z", "0")])
  obtain ⟨_, _, _, hlayer⟩ := hcount _ hmerge
  have hchanged := hoverrides (ofList [("z", "0")]) (by decide +kernel)
  obtain ⟨_, hvalues⟩ := hconfigurations silent counting_agrees
  refine ⟨_, hmerge, (hlayer.mpr (Or.inl (by decide +kernel))).trans (by decide +kernel),
    hchanged.trans hmerge, ?_⟩
  rw [← hvalues (by decide +kernel), hmerge]
  decide +kernel

end Resolution

namespace Context

open Resolution

/-- Without a transform the URL's layer has a number, and it counts: that of the URL's hosts. -/
theorem get?_hostCount_of_resolve {c : Context} {url : String} {overrides r : Properties}
    {u : UrlParts} (hread : UrlParts.read url = .ok (some u))
    (hparameters : u.parameters.get? Key.transform = none)
    (htransform : overrides.get? Key.transform = none)
    (h : c.resolve url overrides = .ok (some r)) :
    r.get? Key.hostCount = some (toString u.hosts.length) := by
  have hmerge := (resolve_eq_some_of_no_transform hread hparameters htransform).mp h
  have hcount := (u.addresses.addEmbedding c.environment overrides).hostCount
  rw [get?_hostCount_of_layer (by simp [hcount]) hmerge, hcount]

/-- A transform that removes the number of hosts, and a configuration that has one. -/
def uncounted : Context where
  load := Loader.lookUp [("fast", ofList [(Key.hostCount, "2")])]
  transforms := ⟨[("strip", Transform.ofEdits [.remove Key.hostCount])]⟩

/-- A URL with one host. -/
def uncountedUrl : String := "mysql://h/db?propertiesTransform=strip&useConfigs=fast"

/-- Where a transform has removed the number of hosts, a configuration supplies
it, and the connection is to fail over to a host that nobody has named. -/
theorem hostCount_supplied_by_configuration :
    ∃ u layer r, UrlParts.read uncountedUrl = .ok (some u) ∧ u.hosts.length = 1 ∧
      uncounted.urlLayer u ∅ = .ok layer ∧ layer.get? Key.hostCount = none ∧
      merge uncounted.load layer ∅ = .ok r ∧ r.get? Key.hostCount = some "2" ∧
      uncounted.resolve uncountedUrl ∅ = .ok (some r) ∧
      Plan.ofSettings .plain uncountedUrl r = .ok (.failover ["h:3306", "null:null"] r) :=
  ⟨⟨.plain, [⟨"h", "3306", none⟩], some "db",
      ofList [(Key.transform, "strip"), (Key.configurations, "fast")]⟩,
    ofList [(Key.transform, "strip"), (Key.configurations, "fast"), ("host.1", "h"),
      ("port.1", "3306"), (Key.host, "h"), (Key.port, "3306"), (Key.database, "db")],
    ofList [(Key.hostCount, "2"), (Key.transform, "strip"), (Key.configurations, "fast"),
      ("host.1", "h"), ("port.1", "3306"), (Key.host, "h"), (Key.port, "3306"),
      (Key.database, "db")],
    by decide +kernel, rfl, by decide +kernel, by decide +kernel, by decide +kernel,
    by decide +kernel, by decide +kernel, by decide +kernel⟩

end Context

end DbRoute
