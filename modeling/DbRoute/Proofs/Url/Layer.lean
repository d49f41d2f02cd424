import DbRoute.Proofs.Routing

/-!
# The layer of a URL

A URL names some keys itself, the numbered ones of its hosts among them, and
whatever its parameters say about these is lost. All other parameters are kept
as they are, and only a socket factory may stand where there is none. The keys
come in the order in which they are written for the first time. This tells the
value of every key and the place of each, so that no other properties fit it.
-/

namespace DbRoute

open Properties

namespace UrlParts

variable {u : UrlParts} {p q : Properties} {key : String}

/-! ## The keys of a URL -/

/-- The keys that the URL writes itself, in the order of their writing. -/
def ownKeys (u : UrlParts) : List String :=
  (List.range u.hosts.length).flatMap
      (fun i => [Key.indexedHost (i + 1), Key.indexedPort (i + 1)]) ++
    Key.hostCount :: (if u.hosts = [] then [] else [Key.host, Key.port]) ++
    if u.database = none then [] else [Key.database]

/-- The keys that are there before: that of the scheme, then those of the parameters. -/
def earlierKeys (u : UrlParts) : List String :=
  let presetKeys := if u.scheme = .launched then [Key.socketFactory] else []
  presetKeys ++ u.parameters.keys.filter fun key => key ≠ Key.hostCount ∧ key ∉ presetKeys

theorem keys_indexedPairs (n : Nat) (hosts : List Host) :
    Pairs.keys (indexedPairs n hosts) = (List.range hosts.length).flatMap
      fun i => [Key.indexedHost (n + i), Key.indexedPort (n + i)] := by
  induction hosts generalizing n with
  | nil => rfl
  | cons host hosts ih =>
      show Key.indexedHost n :: Key.indexedPort n :: Pairs.keys (indexedPairs (n + 1) hosts) = _
      rw [ih, List.length_cons, List.range_succ_eq_map, List.flatMap_cons, List.flatMap_map]
      -- The hosts behind the first are numbered from the next number on.
      have hnext : ∀ i, n + 1 + i = n + (i + 1) := by
        intro i
        omega
      simp only [hnext]
      rfl

theorem keys_ownPairs (u : UrlParts) : Pairs.keys u.ownPairs = u.ownKeys := by
  have hindexed := keys_indexedPairs 1 u.hosts
  simp only [Nat.add_comm 1] at hindexed
  rw [ownPairs_eq, Pairs.keys, List.map_append, ← Pairs.keys, hindexed, ownKeys, List.append_assoc]
  congr 1
  cases hhosts : u.hosts <;> cases hdatabase : u.database <;>
    simp [unnumberedPairs, firstHostPairs, databasePairs, hhosts, hdatabase]

theorem mem_ownKeys :
    key ∈ u.ownKeys ↔
      (∃ i < u.hosts.length, key = Key.indexedHost (i + 1) ∨ key = Key.indexedPort (i + 1)) ∨
        key = Key.hostCount ∨ (u.hosts ≠ [] ∧ (key = Key.host ∨ key = Key.port)) ∨
        (u.database ≠ none ∧ key = Key.database) := by
  by_cases hhosts : u.hosts = [] <;> by_cases hdatabase : u.database = none <;>
    simp [ownKeys, hhosts, hdatabase, or_assoc]

theorem keys_earlierPairs (u : UrlParts) :
    (ofList (preset u.scheme ++ u.parameterPairs)).keys = u.earlierKeys := by
  have hparameters : Pairs.keys u.parameterPairs = u.parameters.keys.filter (· ≠ Key.hostCount) :=
    keys_erase u.parameters Key.hostCount
  have hnodup : (Pairs.keys u.parameterPairs).Nodup :=
    Pairs.nodup_drop Key.hostCount u.parameters.nodup
  have hpreset : (ofList (preset u.scheme)).keys =
      if u.scheme = .launched then [Key.socketFactory] else [] := by
    cases u.scheme <;> decide
  rw [ofList, setAll_append, keys_setAll_of_nodup hnodup, ← ofList, hpreset, hparameters,
    List.filter_filter, earlierKeys]
  congr 1
  apply List.filter_congr
  intro key _
  simp [Bool.and_comm]

theorem keys_properties (u : UrlParts) :
    u.properties.keys = u.earlierKeys ++ u.ownKeys.filter (· ∉ u.earlierKeys) := by
  rw [properties, ofList, setAll_append, keys_setAll_of_nodup u.nodup_keys_ownPairs, ← ofList,
    keys_earlierPairs, keys_ownPairs]

/-! ## What stands under them -/

/-- The layer of a URL: the value of every key, and the order of the keys. -/
structure IsLayer (u : UrlParts) (p : Properties) : Prop where
  hostCount : p.get? Key.hostCount = some (toString u.hosts.length)
  indexed : ∀ i h, u.hosts[i]? = some h →
    p.get? (Key.indexedHost (i + 1)) = some h.name ∧
    p.get? (Key.indexedPort (i + 1)) = some h.port
  first : u.hosts ≠ [] →
    p.get? Key.host = p.get? (Key.indexedHost 1) ∧ p.get? Key.port = p.get? (Key.indexedPort 1)
  database : p.get? Key.database = u.database.or (u.parameters.get? Key.database)
  socketFactory : p.get? Key.socketFactory = (u.parameters.get? Key.socketFactory).or
    (if u.scheme = .launched then some launcherFactory else none)
  /-- Of every other key only the parameters speak. -/
  others : ∀ key, key ∉ u.ownKeys → key ≠ Key.socketFactory →
    p.get? key = u.parameters.get? key
  keys : p.keys = u.earlierKeys ++ u.ownKeys.filter (· ∉ u.earlierKeys)

theorem get?_properties_of_not_mem (h : key ∉ u.ownKeys) :
    u.properties.get? key = (u.parameters.get? key).or ((preset u.scheme).lookup key) := by
  have hown : u.ownPairs.lookup key = none := by
    rw [lookup_eq_none_iff, keys_ownPairs]
    exact h
  have hcount : key ≠ Key.hostCount := by
    rintro rfl
    exact h (mem_ownKeys.mpr (Or.inr (Or.inl rfl)))
  rw [get?_properties, hown, lookup_parameterPairs, if_neg hcount, Option.none_or]

theorem isLayer_properties (u : UrlParts) : IsLayer u u.properties := by
  have haddresses := u.addresses
  constructor
  · exact haddresses.hostCount
  · exact haddresses.indexed
  · intro hhosts
    obtain ⟨h, hosts, hu⟩ := List.exists_cons_of_ne_nil hhosts
    obtain ⟨hhost, hport⟩ := haddresses.first h (by simp [hu])
    obtain ⟨hhost1, hport1⟩ := haddresses.indexed 0 h (by simp [hu])
    exact ⟨hhost.trans hhost1.symm, hport.trans hport1.symm⟩
  · have hpreset : (preset u.scheme).lookup Key.database = none := by
      cases u.scheme <;> decide
    rw [get?_properties, lookup_ownPairs_database, lookup_parameterPairs, if_neg (by decide),
      hpreset, Option.or_none]
  · have hnot : Key.socketFactory ∉ u.ownKeys := by
      rw [mem_ownKeys]
      rintro (⟨i, _, hkey | hkey⟩ | hkey | ⟨_, hkey | hkey⟩ | ⟨_, hkey⟩)
      · exact Key.indexedHost_ne (by decide) hkey.symm
      · exact Key.indexedPort_ne (by decide) hkey.symm
      all_goals exact absurd hkey (by decide)
    rw [get?_properties_of_not_mem hnot]
    cases u.scheme <;> rfl
  · intro key hkey hfactory
    have hpreset : (preset u.scheme).lookup key = none := by
      rw [lookup_eq_none_iff]
      cases u.scheme <;> simp [preset, Pairs.keys, hfactory]
    rw [get?_properties_of_not_mem hkey, hpreset, Option.or_none]
  · exact u.keys_properties

namespace IsLayer

theorem get?_eq (hp : IsLayer u p) (hq : IsLayer u q) (key : String) :
    p.get? key = q.get? key := by
  have hindexed : ∀ i < u.hosts.length,
      p.get? (Key.indexedHost (i + 1)) = q.get? (Key.indexedHost (i + 1)) ∧
      p.get? (Key.indexedPort (i + 1)) = q.get? (Key.indexedPort (i + 1)) := by
    intro i hi
    obtain ⟨hphost, hpport⟩ := hp.indexed i _ (List.getElem?_eq_getElem hi)
    obtain ⟨hqhost, hqport⟩ := hq.indexed i _ (List.getElem?_eq_getElem hi)
    exact ⟨hphost.trans hqhost.symm, hpport.trans hqport.symm⟩
  by_cases hfactory : key = Key.socketFactory
  · subst hfactory
    rw [hp.socketFactory, hq.socketFactory]
  by_cases hkey : key ∈ u.ownKeys
  · rcases mem_ownKeys.mp hkey with ⟨i, hi, rfl | rfl⟩ | rfl | ⟨hhosts, rfl | rfl⟩ | ⟨_, rfl⟩
    · exact (hindexed i hi).1
    · exact (hindexed i hi).2
    · rw [hp.hostCount, hq.hostCount]
    · rw [(hp.first hhosts).1, (hq.first hhosts).1]
      exact (hindexed 0 (List.length_pos_iff.mpr hhosts)).1
    · rw [(hp.first hhosts).2, (hq.first hhosts).2]
      exact (hindexed 0 (List.length_pos_iff.mpr hhosts)).2
    · rw [hp.database, hq.database]
  · rw [hp.others key hkey hfactory, hq.others key hkey hfactory]

/-- Nothing about the layer is left open. -/
theorem unique (hp : IsLayer u p) (hq : IsLayer u q) : p = q :=
  ext_get? (hp.keys.trans hq.keys.symm) (hp.get?_eq hq)

end IsLayer

theorem hostCount_properties (u : UrlParts) :
    u.properties.hostCount =
      if u.hosts.length ≤ maxCount then .ok u.hosts.length
      else .error (.hostCountInvalid (toString u.hosts.length)) := by
  rw [hostCount, (isLayer_properties u).hostCount]
  dsimp only
  rw [number?_toString_eq]
  by_cases h : u.hosts.length ≤ maxCount <;> simp [h]

/-- However many hosts a URL has, and whatever its parameters say: its properties
are the layer that belongs to it, and nothing else is. In particular the hosts
are counted, up to the greatest count that there is. -/
theorem isLayer_iff_eq_properties (u : UrlParts) :
    (∀ p, IsLayer u p ↔ p = u.properties) ∧
    u.properties.hostCount =
      if u.hosts.length ≤ maxCount then .ok u.hosts.length
      else .error (.hostCountInvalid (toString u.hosts.length)) := by
  refine ⟨?_, u.hostCount_properties⟩
  intro p
  constructor
  · intro hp
    exact hp.unique (isLayer_properties u)
  · rintro rfl
    exact isLayer_properties u

example : (properties ⟨.launched, [.plain "a" "1", .plain "b" "2"], none,
    ofList [("port.2", "9"), ("host.3", "c"), ("numHosts", "7"), ("dbname", "d")]⟩).pairs =
      [("socketFactory", launcherFactory), ("port.2", "2"), ("host.3", "c"), ("dbname", "d"),
        ("host.1", "a"), ("port.1", "1"), ("host.2", "b"), ("numHosts", "2"), ("host", "a"),
        ("port", "1")] := by
  decide +kernel

end UrlParts

end DbRoute
