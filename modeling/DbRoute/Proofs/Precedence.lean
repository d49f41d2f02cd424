import DbRoute.Configuration
import DbRoute.Proofs.Layers
import DbRoute.Proofs.Outcome
import DbRoute.Resolution

/-!
# Which layer counts

A successful resolution is one stack of layers: the configurations in the
order of their names, over them what the URL says, and over that the caller's
overrides without a number of hosts. Of every key the topmost layer counts,
and the keys come in the order of the layers from below.
-/

namespace DbRoute

open Properties Outcome

namespace Resolution

variable {load : Lookup} {layer overrides r : Properties}

/-- The names of the configurations in force: the caller's list, or else the URL's. -/
def namesInForce (layer overrides : Properties) : List String :=
  ((effectiveNames? layer overrides).map configurationNames).getD []

/-- The named configurations, one for each name, all of them there. -/
def Loads (load : Lookup) (names : List String) (configurations : List Properties) : Prop :=
  List.Forall₂ (fun name p => load name = .ok p) names configurations

theorem loadOne_eq_ok {name : String} {p : Properties} :
    loadOne load name = .ok p ↔ load name = .ok p :=
  mapError_eq_ok

/-- A list of configurations is loaded one after the other, and none is merged
unless all are there. -/
theorem loadAll_eq_mapM (load : Lookup) (names : String) :
    loadAll load names = ((configurationNames names).mapM (loadOne load)).map stack := by
  -- Over any start, as each configuration is laid over what those before it make up.
  suffices h : ∀ (names : List String) (start : Properties),
      names.foldlM (fun merged name => (loadOne load name).map merged.overlay) start =
        (names.mapM (loadOne load)).map (·.foldl overlay start) from
    h (configurationNames names) ∅
  intro names
  induction names with
  | nil => exact fun _ => rfl
  | cons name names ih =>
      intro start
      rw [List.foldlM_cons, List.mapM_cons]
      cases loadOne load name with
      | error fault => rfl
      | ok p =>
          refine (ih (start.overlay p)).trans ?_
          cases names.mapM (loadOne load) <;> rfl

theorem loadAll_eq_ok {names : String} {p : Properties} :
    loadAll load names = .ok p ↔
      ∃ configurations, Loads load (configurationNames names) configurations ∧
        stack configurations = p := by
  simp only [loadAll_eq_mapM, map_eq_ok, mapM_eq_ok, loadOne_eq_ok]
  rfl

/-- The three layers of a resolution, from below. -/
theorem merge_eq_ok :
    merge load layer overrides = .ok r ↔
      ∃ configurations, Loads load (namesInForce layer overrides) configurations ∧
        ((stack configurations).overlay layer).overlay (overrides.erase Key.hostCount) = r := by
  unfold merge namesInForce
  cases effectiveNames? layer overrides with
  | none =>
      have hbase : (stack []).overlay layer = layer := empty_overlay layer
      constructor
      · rintro ⟨⟩
        exact ⟨[], .nil, by rw [hbase]; rfl⟩
      · rintro ⟨_, ⟨⟩, rfl⟩
        rw [hbase]
        rfl
  | some names =>
      constructor
      · intro h
        obtain ⟨base, hbase, ⟨⟩⟩ := bind_eq_ok.mp h
        obtain ⟨configured, hload, rfl⟩ := map_eq_ok.mp hbase
        obtain ⟨configurations, hloads, rfl⟩ := loadAll_eq_ok.mp hload
        exact ⟨configurations, hloads, rfl⟩
      · rintro ⟨configurations, hloads, rfl⟩
        have hload : loadAll load names = .ok (stack configurations) :=
          loadAll_eq_ok.mpr ⟨configurations, hloads, rfl⟩
        exact bind_eq_ok.mpr ⟨_, map_eq_ok.mpr ⟨_, hload, rfl⟩, rfl⟩

theorem Loads.exists_of_mem {name : String} {names : List String}
    {configurations : List Properties} (h : Loads load names configurations)
    (hname : name ∈ names) : ∃ p ∈ configurations, load name = .ok p := by
  induction h with
  | nil => exact absurd hname List.not_mem_nil
  | cons hload _ ih =>
      rcases List.mem_cons.mp hname with rfl | hname
      · exact ⟨_, List.mem_cons_self, hload⟩
      · obtain ⟨p, hp, hload⟩ := ih hname
        exact ⟨p, List.mem_cons_of_mem _ hp, hload⟩

/-- A configuration in force is there, and all of its keys are in the result. -/
theorem exists_load_of_mem_namesInForce {name : String}
    (h : merge load layer overrides = .ok r) (hname : name ∈ namesInForce layer overrides) :
    ∃ p, load name = .ok p ∧ p.keys ⊆ r.keys := by
  obtain ⟨configurations, hloads, rfl⟩ := merge_eq_ok.mp h
  obtain ⟨p, hp, hload⟩ := hloads.exists_of_mem hname
  refine ⟨p, hload, fun key hkey => ?_⟩
  have hstack : key ∈ (stack configurations).keys := by
    rw [keys_stack, List.mem_eraseDups]
    exact List.mem_flatMap.mpr ⟨p, hp, hkey⟩
  rw [keys_overlay, keys_overlay]
  exact List.mem_append_left _ (List.mem_append_left _ hstack)

end Resolution

/-! ## What a resolution says -/

namespace Context

open Resolution

theorem resolve_eq_some {c : Context} {url : String} {overrides r : Properties} :
    c.resolve url overrides = .ok (some r) ↔
      ∃ parts layer, UrlParts.read url = .ok (some parts) ∧
        c.urlLayer parts overrides = .ok layer ∧ merge c.load layer overrides = .ok r := by
  rw [resolve, bind_eq_ok]
  constructor
  · rintro ⟨parts?, hread, h⟩
    cases parts? with
    | none => cases h
    | some parts =>
        obtain ⟨layer, hlayer, h⟩ := bind_eq_ok.mp h
        obtain ⟨p, hmerge, ⟨⟩⟩ := bind_eq_ok.mp h
        exact ⟨parts, layer, hread, hlayer, hmerge⟩
  · rintro ⟨parts, layer, hread, hlayer, hmerge⟩
    exact ⟨some parts, hread, bind_eq_ok.mpr ⟨layer, hlayer, bind_eq_ok.mpr ⟨r, hmerge, rfl⟩⟩⟩

/-- A URL that can be read has one reading, so what is left are the two steps behind it. -/
theorem resolve_eq_some_of_read {c : Context} {url : String} {overrides r : Properties}
    {u : UrlParts} (hread : UrlParts.read url = .ok (some u)) :
    c.resolve url overrides = .ok (some r) ↔
      ∃ layer, c.urlLayer u overrides = .ok layer ∧ merge c.load layer overrides = .ok r := by
  rw [resolve_eq_some]
  constructor
  · rintro ⟨u', layer, hread', hlayer, hmerge⟩
    obtain rfl : u = u' := Option.some.inj (Except.ok.inj (hread.symm.trans hread'))
    exact ⟨layer, hlayer, hmerge⟩
  · rintro ⟨layer, hlayer, hmerge⟩
    exact ⟨u, layer, hread, hlayer, hmerge⟩

/-- Whatever the URL, the overrides and the context: if resolution succeeds,
every key but the number of hosts has the value that the overrides give it, or
else the URL's layer, or else the last configuration in force that has it. The
keys are distinct, those of the configurations first in the order of their
first appearance, then the new ones of the URL's layer, then the new ones of
the overrides. Without overrides and configurations the URL's layer is all. -/
theorem resolve_precedence (c : Context) (url : String) (overrides r : Properties)
    (h : c.resolve url overrides = .ok (some r)) :
    ∃ parts layer configurations,
      UrlParts.read url = .ok (some parts) ∧ c.urlLayer parts overrides = .ok layer ∧
      Loads c.load (namesInForce layer overrides) configurations ∧
      (∀ key, key ≠ Key.hostCount → r.get? key =
        (overrides.get? key).or ((layer.get? key).or (lastValue? configurations key))) ∧
      r.keys.Nodup ∧
      r.keys = (configurations.flatMap keys).eraseDups ++
        layer.keys.filter (· ∉ configurations.flatMap keys) ++
        overrides.keys.filter (fun key => key ≠ Key.hostCount ∧
          key ∉ configurations.flatMap keys ∧ key ∉ layer.keys) ∧
      (overrides = ∅ → effectiveNames? layer overrides = none → r = layer) := by
  obtain ⟨parts, layer, hread, hlayer, hmerge⟩ := resolve_eq_some.mp h
  obtain ⟨configurations, hloads, rfl⟩ := merge_eq_ok.mp hmerge
  refine ⟨parts, layer, configurations, hread, hlayer, hloads, ?_, nodup_keys _, ?_, ?_⟩
  · intro key hkey
    rw [get?_overlay, get?_overlay, get?_stack, get?_erase, if_neg hkey]
  · rw [keys_overlay, keys_overlay, keys_stack, keys_erase, List.filter_filter]
    congr 1
    · congr 1
      exact List.filter_congr fun key _ => by simp only [List.mem_eraseDups]
    · -- What the overrides add is new to both layers below.
      refine List.filter_congr fun key _ => ?_
      simp only [List.mem_append, List.mem_eraseDups, List.mem_filter]
      grind
  · rintro rfl hnone
    rw [namesInForce, hnone] at hloads
    cases hloads
    exact empty_overlay layer

/-- Two configurations, the later of which speaks of the number of hosts. -/
def collidingLayers : Context where
  load := Loader.lookUp
    [("base", ofList [("timeout", "100"), ("a", "1")]),
      ("fast", ofList [("timeout", "200"), (Key.hostCount, "9")])]

/-- All layers have a timeout, and three of them a number of hosts. -/
theorem resolve_precedence_colliding :
    ∃ r, collidingLayers.resolve "mysql://h/db?useConfigs=base,fast&timeout=50"
        (ofList [("timeout", "7"), (Key.hostCount, "4"), ("z", "0")]) = .ok (some r) ∧
      r.keys.Nodup ∧ r.get? "timeout" = some "7" := by
  have h : collidingLayers.resolve "mysql://h/db?useConfigs=base,fast&timeout=50"
      (ofList [("timeout", "7"), (Key.hostCount, "4"), ("z", "0")]) =
        .ok (some (ofList [("timeout", "7"), ("a", "1"), (Key.hostCount, "1"),
          (Key.configurations, "base,fast"), ("host.1", "h"), ("port.1", "3306"), ("host", "h"),
          ("port", "3306"), ("dbname", "db"), ("z", "0")])) := by decide +kernel
  obtain ⟨_, _, _, _, _, _, hget, hnodup, _⟩ := resolve_precedence _ _ _ _ h
  refine ⟨_, h, hnodup, ?_⟩
  rw [hget "timeout" (by decide)]
  rfl

end Context

end DbRoute
