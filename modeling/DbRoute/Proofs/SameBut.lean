import DbRoute.Proofs.AnyScheme
import DbRoute.Proofs.Url.Layer

/-!
# Properties that differ under a few keys

Two runs of a resolution, on URLs that differ in some values, go through the same
steps. Nothing is decided by the values under other keys than those that steer, so
wherever the values of one run come to be, those of the other do, and the keys stay
in step.
-/

namespace DbRoute

open Properties Outcome

/-- The same keys in the same order, and the same values but under the given keys. -/
structure SameBut (hidden : List String) (p q : Properties) : Prop where
  keys : p.keys = q.keys
  get? : ∀ key, key ∉ hidden → p.get? key = q.get? key

namespace SameBut

variable {hidden : List String} {p q p' q' : Properties} {key : String}

theorem refl (p : Properties) : SameBut hidden p p := ⟨rfl, fun _ _ => rfl⟩

theorem symm (h : SameBut hidden p q) : SameBut hidden q p :=
  ⟨h.keys.symm, fun key hkey => (h.get? key hkey).symm⟩

theorem set (h : SameBut hidden p q) (key value : String) :
    SameBut hidden (p.set key value) (q.set key value) := by
  constructor
  · rw [keys_set, keys_set, h.keys]
  · intro name hname
    rw [get?_set, get?_set, h.get? name hname]

theorem overlay (h : SameBut hidden p q) (h' : SameBut hidden p' q') :
    SameBut hidden (p.overlay p') (q.overlay q') := by
  constructor
  · rw [keys_overlay, keys_overlay, h.keys, h'.keys]
  · intro key hkey
    rw [get?_overlay, get?_overlay, h.get? key hkey, h'.get? key hkey]

theorem eq_of_get? (h : SameBut hidden p q) (hget : ∀ key ∈ hidden, p.get? key = q.get? key) :
    p = q := by
  refine ext_get? h.keys fun key => ?_
  by_cases hkey : key ∈ hidden
  · exact hget key hkey
  · exact h.get? key hkey

end SameBut

/-! ## In the layer of a URL -/

namespace UrlParts

variable {hidden : List String} {u : UrlParts} {p : Properties} {i : Nat} {h h' : Host}
  {key : String}

theorem sameBut_properties_of_parameters (hp : SameBut hidden u.parameters p) :
    SameBut hidden u.properties { u with parameters := p }.properties := by
  have hlayers : ∀ q : Properties, { u with parameters := q }.properties =
      ((ofList (preset u.scheme)).overlay (q.erase Key.hostCount)).overlay (ofList u.ownPairs) := by
    intro q
    rw [overlay_ofList, properties, ofList, setAll_append, setAll_append]
    rfl
  have hcount : SameBut hidden (u.parameters.erase Key.hostCount) (p.erase Key.hostCount) := by
    constructor
    · rw [keys_erase, keys_erase, hp.keys]
    · intro key hkey
      rw [get?_erase, get?_erase, hp.get? key hkey]
  have hu := hlayers u.parameters
  rw [hlayers p]
  exact hu ▸ ((SameBut.refl _).overlay hcount).overlay (.refl _)

/-- The keys under which properties have the name of a host, the hosts counted from zero. -/
def nameKeys (i : Nat) : List String :=
  Key.indexedHost (i + 1) :: if i = 0 then [Key.host] else []

theorem mem_nameKeys :
    key ∈ nameKeys i ↔ key = Key.indexedHost (i + 1) ∨ i = 0 ∧ key = Key.host := by
  unfold nameKeys
  split <;> simp [*]

theorem get?_of_mem_nameKeys (hi : u.hosts[i]? = some h) (hkey : key ∈ nameKeys i) :
    u.properties.get? key = some h.name := by
  rcases mem_nameKeys.mp hkey with rfl | ⟨rfl, rfl⟩
  · exact (u.addresses.indexed i h hi).1
  · exact (u.addresses.first h (List.head?_eq_getElem?.trans hi)).1

theorem ownKeys_set (u : UrlParts) (i : Nat) (h' : Host) :
    { u with hosts := u.hosts.set i h' }.ownKeys = u.ownKeys := by
  have hnil : u.hosts.set i h' = [] ↔ u.hosts = [] := by simp
  simp only [ownKeys, List.length_set, hnil]

/-- The name of a host stands under its own keys and nowhere else. -/
theorem lookup_ownPairs_set (hi : u.hosts[i]? = some h) (hport : h'.port = h.port)
    (hkey : key ∉ nameKeys i) :
    { u with hosts := u.hosts.set i h' }.ownPairs.lookup key = u.ownPairs.lookup key := by
  obtain ⟨hfirst, hhost⟩ := not_or.mp (mt mem_nameKeys.mpr hkey)
  have hlt : i < u.hosts.length := (List.getElem?_eq_some_iff.mp hi).1
  have hname : ∀ j, j ≠ i → (u.hosts.set i h')[j]? = u.hosts[j]? := fun j hj =>
    List.getElem?_set_ne (Ne.symm hj)
  have hports : ∀ j : Nat, (u.hosts.set i h')[j]?.map Host.port = u.hosts[j]?.map Host.port := by
    intro j
    by_cases hj : j = i
    · rw [hj, List.getElem?_set_self hlt, hi, Option.map_some, Option.map_some, hport]
    · rw [hname j hj]
  by_cases hown : key ∈ u.ownKeys
  · rcases mem_ownKeys.mp hown with ⟨j, _, rfl | rfl⟩ | rfl | ⟨_, rfl | rfl⟩ | ⟨_, rfl⟩
    · have hj : j ≠ i := fun e => hfirst (e ▸ rfl)
      rw [(lookup_ownPairs_indexed _ j).1, (lookup_ownPairs_indexed _ j).1]
      exact congrArg _ (hname j hj)
    · rw [(lookup_ownPairs_indexed _ j).2, (lookup_ownPairs_indexed _ j).2]
      exact hports j
    · rw [lookup_ownPairs_hostCount, lookup_ownPairs_hostCount, List.length_set]
    · have hzero : 0 ≠ i := fun e => hhost ⟨e.symm, rfl⟩
      rw [lookup_ownPairs_host, lookup_ownPairs_host, List.head?_eq_getElem?,
        List.head?_eq_getElem?, hname 0 hzero]
    · rw [lookup_ownPairs_port, lookup_ownPairs_port, List.head?_eq_getElem?,
        List.head?_eq_getElem?]
      exact hports 0
    · rw [lookup_ownPairs_database, lookup_ownPairs_database]
  · have hnone : ∀ v : UrlParts, v.ownKeys = u.ownKeys → v.ownPairs.lookup key = none := by
      intro v hv
      rwa [lookup_eq_none_iff, keys_ownPairs, hv]
    rw [hnone _ (ownKeys_set u i h'), hnone u rfl]

theorem sameBut_properties_of_host (hi : u.hosts[i]? = some h) (hport : h'.port = h.port) :
    SameBut (nameKeys i) u.properties { u with hosts := u.hosts.set i h' }.properties := by
  constructor
  · rw [keys_properties, keys_properties, ownKeys_set]
    rfl
  · intro key hkey
    rw [get?_properties, get?_properties, lookup_ownPairs_set hi hport hkey]
    rfl

end UrlParts

/-! ## Through a resolution -/

namespace Resolution

variable {hidden : List String} {layer other overrides r r' : Properties}

theorem sameBut_addEmbedding (h : SameBut hidden layer other) (hauto : Key.autoEmbedding ∉ hidden)
    (hnames : Key.configurations ∉ hidden) (env : Environment) :
    SameBut hidden (addEmbedding env layer overrides) (addEmbedding env other overrides) := by
  have hsteer : ∀ {key}, key ∉ hidden →
      steering? layer overrides key = steering? other overrides key := by
    intro key hkey
    rw [steering?, steering?, h.get? key hkey]
  rw [addEmbedding_eq, addEmbedding_eq, hsteer hauto, extended, extended, hsteer hnames]
  split
  · split
    · exact h
    · split
      · exact h.set _ _
      · exact h
  · exact h

/-- Layers that name the same configurations stand between the same layers. -/
theorem exists_below_of_merge {load : Lookup}
    (hnames : layer.get? Key.configurations = other.get? Key.configurations)
    (h : merge load layer overrides = .ok r) (h' : merge load other overrides = .ok r') :
    ∃ below : Properties, r = (below.overlay layer).overlay (overrides.erase Key.hostCount) ∧
      r' = (below.overlay other).overlay (overrides.erase Key.hostCount) := by
  obtain ⟨configurations, hloads, rfl⟩ := merge_eq_ok.mp h
  obtain ⟨configurations', hloads', rfl⟩ := merge_eq_ok.mp h'
  have hforce : namesInForce layer overrides = namesInForce other overrides := by
    rw [namesInForce, namesInForce, effectiveNames?, effectiveNames?, hnames]
  rw [hforce] at hloads
  have hload : Relator.RightUnique fun name p => load name = .ok p :=
    fun _ _ _ hp hq => Except.ok.inj (hp.symm.trans hq)
  obtain rfl := List.right_unique_forall₂' hload hloads hloads'
  exact ⟨stack configurations, rfl, rfl⟩

theorem sameBut_of_merge {load : Lookup} (hlayers : SameBut hidden layer other)
    (hnames : Key.configurations ∉ hidden)
    (h : merge load layer overrides = .ok r) (h' : merge load other overrides = .ok r') :
    SameBut hidden r r' := by
  obtain ⟨below, rfl, rfl⟩ := exists_below_of_merge (hlayers.get? _ hnames) h h'
  exact (SameBut.overlay (.refl _) hlayers).overlay (.refl _)

end Resolution

end DbRoute
