import DbRoute.Connection
import DbRoute.Proofs.Plan
import DbRoute.Proofs.Precedence
import DbRoute.Proofs.Text.Numeral
import DbRoute.Proofs.Url.OwnProperties
import DbRoute.Proofs.Url.Reading

/-!
# Where a connection goes

Routing reads hosts and ports from the same properties to which queries and
configurations write whatever they like. Still nobody but the URL has a say in
it: the properties of a URL have the address of its hosts, and no later step
takes an address away as long as the overrides leave it alone.
-/

namespace DbRoute

open Properties Outcome Resolution

variable {p q overrides : Properties} {hosts : List Host} {key : String}

/-! ## Addresses -/

/-- The address that the properties have is that of the given hosts. -/
structure Addresses (p : Properties) (hosts : List Host) : Prop where
  hostCount : p.get? Key.hostCount = some (toString hosts.length)
  first : ∀ h ∈ hosts.head?, p.get? Key.host = some h.name ∧ p.get? Key.port = some h.port
  indexed : ∀ i h, hosts[i]? = some h →
    p.get? (Key.indexedHost (i + 1)) = some h.name ∧
    p.get? (Key.indexedPort (i + 1)) = some h.port

/-- Overrides that leave the address to the URL. -/
structure SaysNoAddress (overrides : Properties) : Prop where
  host : overrides.get? Key.host = none
  port : overrides.get? Key.port = none
  database : overrides.get? Key.database = none
  indexedHost : ∀ n, overrides.get? (Key.indexedHost n) = none
  indexedPort : ∀ n, overrides.get? (Key.indexedPort n) = none

/-- Overrides that leave the addresses of `count` hosts to the URL. -/
def LeavesAddresses (overrides : Properties) (count : Nat) : Prop :=
  ∀ key ∈ Plan.addressKeys count, key ≠ Key.hostCount → overrides.get? key = none

theorem leavesAddresses_empty (count : Nat) : LeavesAddresses ∅ count :=
  fun _ _ _ => get?_empty _

theorem UrlParts.addresses (u : UrlParts) : Addresses u.properties u.hosts := by
  constructor
  · rw [get?_properties, lookup_ownPairs_hostCount]
    rfl
  · intro h hh
    rw [get?_properties, get?_properties, lookup_ownPairs_host, lookup_ownPairs_port,
      Option.mem_def.mp hh]
    exact ⟨rfl, rfl⟩
  · intro i h hi
    obtain ⟨hhost, hport⟩ := u.lookup_ownPairs_indexed i
    rw [get?_properties, get?_properties, hhost, hport, hi]
    exact ⟨rfl, rfl⟩

theorem mem_addressKeys {count : Nat} :
    key ∈ Plan.addressKeys count ↔
      (∃ i < count, key = Key.indexedHost (i + 1) ∨ key = Key.indexedPort (i + 1)) ∨
        key ∈ [Key.hostCount, Key.host, Key.port] := by
  simp [Plan.addressKeys]

theorem ne_of_mem_addressKeys {count : Nat} {other : String} (h : key ∈ Plan.addressKeys count)
    (hdot : '.' ∉ other.toList) (hother : other ∉ [Key.hostCount, Key.host, Key.port]) :
    key ≠ other := by
  rintro rfl
  rcases mem_addressKeys.mp h with ⟨i, _, hkey | hkey⟩ | hkey
  · exact Key.indexedHost_ne hdot hkey.symm
  · exact Key.indexedPort_ne hdot hkey.symm
  · exact hother hkey

/-- To keep the address it is enough to keep what stands under its keys. -/
theorem Addresses.of_keeps (h : Addresses p hosts)
    (hkeeps : ∀ key ∈ Plan.addressKeys hosts.length, ∀ value,
      p.get? key = some value → q.get? key = some value) : Addresses q hosts := by
  constructor
  · exact hkeeps _ (mem_addressKeys.mpr (Or.inr (by decide))) _ h.hostCount
  · intro x hx
    obtain ⟨hhost, hport⟩ := h.first x hx
    exact ⟨hkeeps _ (mem_addressKeys.mpr (Or.inr (by decide))) _ hhost,
      hkeeps _ (mem_addressKeys.mpr (Or.inr (by decide))) _ hport⟩
  · intro i x hx
    obtain ⟨hi, _⟩ := List.getElem?_eq_some_iff.mp hx
    obtain ⟨hhost, hport⟩ := h.indexed i x hx
    exact ⟨hkeeps _ (mem_addressKeys.mpr (Or.inl ⟨i, hi, Or.inl rfl⟩)) _ hhost,
      hkeeps _ (mem_addressKeys.mpr (Or.inl ⟨i, hi, Or.inr rfl⟩)) _ hport⟩

theorem Addresses.erase_roundRobin (h : Addresses p hosts) :
    Addresses (p.erase Key.roundRobin) hosts := by
  refine h.of_keeps fun key hkey value hvalue => ?_
  rw [get?_erase, if_neg (ne_of_mem_addressKeys hkey (by decide) (by decide)), hvalue]

theorem get?_addEmbedding (env : Environment) (layer overrides : Properties)
    (hkey : key ≠ Key.configurations) :
    (addEmbedding env layer overrides).get? key = layer.get? key := by
  unfold addEmbedding
  split
  · split
    · rfl
    · dsimp only
      split
      · rw [get?_set, if_neg hkey]
      · rfl
  · rfl

theorem Addresses.addEmbedding (h : Addresses p hosts) (env : Environment)
    (overrides : Properties) : Addresses (addEmbedding env p overrides) hosts := by
  refine h.of_keeps fun key hkey value hvalue => ?_
  rw [get?_addEmbedding _ _ _ (ne_of_mem_addressKeys hkey (by decide) (by decide)), hvalue]

/-- What lies below counts for nothing where the URL has spoken. -/
theorem Addresses.over (h : Addresses p hosts) (below : Properties) :
    Addresses (below.overlay p) hosts := by
  refine h.of_keeps fun key _ value hvalue => ?_
  rw [get?_overlay, hvalue, Option.some_or]

theorem SaysNoAddress.leaves (h : SaysNoAddress overrides) (count : Nat) :
    LeavesAddresses overrides count := by
  intro key hkey hne
  rcases mem_addressKeys.mp hkey with ⟨i, _, rfl | rfl⟩ | hkey
  · exact h.indexedHost _
  · exact h.indexedPort _
  · simp only [List.mem_cons, List.not_mem_nil, or_false] at hkey
    rcases hkey with rfl | rfl | rfl
    · exact absurd rfl hne
    · exact h.host
    · exact h.port

/-- Keys without a dot, none of them the database or the first host, are no address. -/
theorem SaysNoAddress.of_keys (h : ∀ key ∈ overrides.keys,
    '.' ∉ key.toList ∧ key ∉ [Key.host, Key.port, Key.database]) : SaysNoAddress overrides := by
  have hnone : ∀ key, key ∈ [Key.host, Key.port, Key.database] → overrides.get? key = none :=
    fun key hkey => get?_eq_none_iff.mpr fun hmem => (h key hmem).2 hkey
  constructor
  · exact hnone _ (by decide)
  · exact hnone _ (by decide)
  · exact hnone _ (by decide)
  · exact fun n => get?_eq_none_iff.mpr fun hmem => Key.indexedHost_ne (h _ hmem).1 rfl
  · exact fun n => get?_eq_none_iff.mpr fun hmem => Key.indexedPort_ne (h _ hmem).1 rfl

theorem Addresses.under (h : Addresses p hosts)
    (hoverrides : LeavesAddresses overrides hosts.length) :
    Addresses (p.overlay (overrides.erase Key.hostCount)) hosts := by
  refine h.of_keeps fun key hkey value hvalue => ?_
  -- Of the number of hosts the overrides may speak, but it is taken out of them.
  have hnone : (overrides.erase Key.hostCount).get? key = none := by
    rw [get?_erase]
    split
    · rfl
    · next hne => exact hoverrides key hkey hne
  rw [get?_overlay, hnone, Option.none_or, hvalue]

/-! ## Reading an address -/

theorem hostCount_eq_of_get? {n : Nat} (h : p.get? Key.hostCount = some (toString n))
    (hn : n ≤ maxCount) : p.hostCount = .ok n := by
  rw [Properties.hostCount, h]
  dsimp only
  rw [number?_toString hn]

theorem Addresses.hostCount_eq (h : Addresses p hosts) (hlen : hosts.length ≤ maxCount) :
    p.hostCount = .ok hosts.length :=
  hostCount_eq_of_get? h.hostCount hlen

theorem Addresses.hostPort_eq (h : Addresses p hosts) {i : Nat} {x : Host}
    (hx : hosts[i]? = some x) : p.hostPort (i + 1) = x.text := by
  obtain ⟨hhost, hport⟩ := h.indexed i x hx
  rw [Properties.hostPort, indexedHost?, indexedPort?, hhost, hport]
  rfl

theorem map_range_eq_map {α : Type} {f : Nat → α} {g : Host → α}
    (h : ∀ i x, hosts[i]? = some x → f i = g x) :
    (List.range hosts.length).map f = hosts.map g := by
  refine List.ext_getElem (by simp) fun i hi _ => ?_
  rw [List.length_map, List.length_range] at hi
  rw [List.getElem_map, List.getElem_map, List.getElem_range]
  exact h i _ (List.getElem?_eq_getElem hi)

theorem Addresses.hostPorts_eq (h : Addresses p hosts) :
    p.hostPorts hosts.length = hosts.map Host.text :=
  map_range_eq_map fun _ _ => h.hostPort_eq

theorem Addresses.indexedHosts_eq (h : Addresses p hosts) :
    (List.range hosts.length).map (fun i => (p.indexedHost? (i + 1)).getD missing) =
      hosts.map (·.name) :=
  map_range_eq_map fun i x hx => by rw [indexedHost?, (h.indexed i x hx).1, Option.getD_some]

/-- The roles of the hosts of a URL: if the first one is a descriptor, as the
descriptors have it, and otherwise the first host alone is a master. -/
def Roles.ofHosts : List Host → Roles
  | [] => leadingMaster []
  | h :: hosts =>
      if Host.isDescriptorText h.text.toList then descriptorRoles ((h :: hosts).map (·.name))
      else leadingMaster ((h :: hosts).map Host.text)

theorem Addresses.roles_eq (h : Addresses p hosts) (hne : hosts ≠ []) :
    Roles.ofSettings p hosts.length = Roles.ofHosts hosts := by
  obtain ⟨x, rest, rfl⟩ := List.exists_cons_of_ne_nil hne
  have hfirst : p.hostPort 1 = x.text := h.hostPort_eq (i := 0) rfl
  rw [Roles.ofSettings, hfirst, h.indexedHosts_eq, h.hostPorts_eq, Roles.ofHosts]

/-! ## Routes -/

/-- How to connect to the hosts of a URL, which alone decide it. -/
def Strategy.ofHosts (scheme : Scheme) (database : Option String) (hosts : List Host) :
    Except Fault Strategy :=
  match scheme, hosts with
  | .balanced, _ => .ok (.loadBalanced (hosts.map Host.text))
  | .replicated, _ =>
      if hosts.length < 2 then .error (.noSlave hosts.length)
      else .ok (.replicated (Roles.ofHosts hosts))
  | .plain, [h] | .launched, [h] =>
      match number? maxPort h.port with
      | some port => .ok (.direct h.name port database)
      | none => .error (.portInvalid h.port)
  | .plain, _ | .launched, _ => .ok (.failover (hosts.map Host.text))

theorem Addresses.serverTarget_eq {x : Host} (h : Addresses p [x]) (url : String) :
    Plan.serverTarget url p =
      match number? maxPort x.port with
      | some port => .ok ⟨x.name, port, p.database?, url, p⟩
      | none => .error (.portInvalid x.port) := by
  obtain ⟨hhost, hport⟩ := h.first x rfl
  rw [Plan.serverTarget, Properties.port, Properties.host, hhost, hport]
  dsimp only
  cases number? maxPort x.port <;> rfl

theorem Addresses.ofCount_eq (h : Addresses p hosts) (hne : hosts ≠ []) (scheme : Scheme)
    (url : String) :
    (Plan.ofCount scheme url p hosts.length).map Strategy.ofPlan =
      Strategy.ofHosts scheme p.database? hosts := by
  obtain ⟨x, rest, rfl⟩ := List.exists_cons_of_ne_nil hne
  have hposts := h.erase_roundRobin.hostPorts_eq
  -- The managed launcher changes nothing here, so plain URLs stand for both.
  have hplain : (Plan.ofCount .plain url p (x :: rest).length).map Strategy.ofPlan =
      Strategy.ofHosts .plain p.database? (x :: rest) := by
    cases rest with
    | nil =>
        change ((Plan.serverTarget url p).map Plan.direct).map Strategy.ofPlan = _
        rw [h.serverTarget_eq, Strategy.ofHosts]
        cases number? maxPort x.port <;> rfl
    | cons y rest =>
        have hlen : (x :: y :: rest).length ≠ 1 := by simp
        unfold Plan.ofCount
        dsimp only
        rw [if_neg hlen, hposts]
        rfl
  cases scheme with
  | plain => exact hplain
  | launched => cases rest <;> exact hplain
  | balanced =>
      have hlen : ¬(x :: rest).length < 1 := by simp
      unfold Plan.ofCount
      dsimp only
      rw [if_neg hlen, hposts]
      rfl
  | replicated =>
      unfold Plan.ofCount Strategy.ofHosts
      dsimp only
      split
      · rfl
      · rw [Plan.roleTargets, h.roles_eq hne]
        rfl

theorem Addresses.ofSettings_eq (h : Addresses p hosts) (hlen : hosts.length ≤ maxCount)
    (scheme : Scheme) (url : String) :
    Plan.ofSettings scheme url p = Plan.ofCount scheme url p hosts.length := by
  rw [Plan.ofSettings, h.hostCount_eq hlen]
  rfl

theorem Strategy.code_of_ofHosts {scheme : Scheme} {database : Option String} {fault : Fault}
    (h : ofHosts scheme database hosts = .error fault) :
    fault.code = if scheme = .replicated then .insufficientHosts else .invalidAttribute := by
  unfold ofHosts at h
  split at h
  · cases h
  · split at h
    · cases h
      rfl
    · cases h
  · split at h
    · cases h
    · cases h
      rfl
  · split at h
    · cases h
    · cases h
      rfl
  · cases h
  · cases h

/-! ## What resolution leaves of the address -/

theorem transformed_of_none {transforms : Registry} (hlayer : p.get? Key.transform = none)
    (hoverrides : overrides.get? Key.transform = none) :
    transformed transforms p overrides = .ok p := by
  rw [transformed, steering?, hlayer, hoverrides]
  rfl

/-- Neither a URL that can be read nor the caller asks for a transform. -/
structure NamesNoTransform (url : String) (overrides : Properties) : Prop where
  url : ∀ u, UrlParts.read url = .ok (some u) → u.parameters.get? Key.transform = none
  overrides : overrides.get? Key.transform = none

namespace Context

/-- Without a transform the URL's layer is what the URL says, with the
configuration of the application added. -/
theorem urlLayer_of_no_transform {c : Context} {u : UrlParts}
    (hparameters : u.parameters.get? Key.transform = none)
    (hoverrides : overrides.get? Key.transform = none) :
    c.urlLayer u overrides = .ok (addEmbedding c.environment u.properties overrides) := by
  have hlayer : u.properties.get? Key.transform = none :=
    (u.get?_properties_eq_parameters (by decide) (by decide)).trans hparameters
  rw [urlLayer, transformed_of_none hlayer hoverrides]
  rfl

theorem resolve_eq_some_of_no_transform {c : Context} {url : String} {r : Properties}
    {u : UrlParts} (hread : UrlParts.read url = .ok (some u))
    (hparameters : u.parameters.get? Key.transform = none)
    (htransform : overrides.get? Key.transform = none) :
    c.resolve url overrides = .ok (some r) ↔
      merge c.load (addEmbedding c.environment u.properties overrides) overrides = .ok r := by
  have hlayer := urlLayer_of_no_transform (c := c) hparameters htransform
  rw [resolve_eq_some_of_read hread]
  constructor
  · rintro ⟨layer, hlayer', hmerge⟩
    obtain rfl := Except.ok.inj (hlayer.symm.trans hlayer')
    exact hmerge
  · intro hmerge
    exact ⟨_, hlayer, hmerge⟩

/-- Behind a resolution without a transform there is a URL that can be read. -/
theorem exists_merge_of_resolve {c : Context} {url : String} {r : Properties}
    (hnone : NamesNoTransform url overrides) (h : c.resolve url overrides = .ok (some r)) :
    ∃ u, UrlParts.read url = .ok (some u) ∧
      merge c.load (addEmbedding c.environment u.properties overrides) overrides = .ok r := by
  obtain ⟨u, _, hread, _⟩ := resolve_eq_some.mp h
  exact ⟨u, hread,
    (resolve_eq_some_of_no_transform hread (hnone.url u hread) hnone.overrides).mp h⟩

/-- Without a transform, the layers of a resolution are the configurations in
force, what the URL says, and the overrides. -/
theorem layers_of_resolve {c : Context} {url : String} {r : Properties} {u : UrlParts}
    (hread : UrlParts.read url = .ok (some u))
    (hparameters : u.parameters.get? Key.transform = none)
    (htransform : overrides.get? Key.transform = none)
    (h : c.resolve url overrides = .ok (some r)) :
    ∃ configurations,
      Loads c.load (namesInForce (addEmbedding c.environment u.properties overrides) overrides)
        configurations ∧
      ((stack configurations).overlay (addEmbedding c.environment u.properties overrides)).overlay
        (overrides.erase Key.hostCount) = r :=
  merge_eq_ok.mp ((resolve_eq_some_of_no_transform hread hparameters htransform).mp h)

theorem addresses_of_resolve_of_leaves {c : Context} {url : String} {r : Properties}
    {u : UrlParts} (hread : UrlParts.read url = .ok (some u))
    (hparameters : u.parameters.get? Key.transform = none)
    (htransform : overrides.get? Key.transform = none)
    (hoverrides : LeavesAddresses overrides u.hosts.length)
    (h : c.resolve url overrides = .ok (some r)) : Addresses r u.hosts := by
  obtain ⟨configurations, _, rfl⟩ := layers_of_resolve hread hparameters htransform h
  -- The URL's layer has the address, and keeps it over the configurations and under the overrides.
  exact ((u.addresses.addEmbedding _ _).over _).under hoverrides

/-- The address of a resolution is that of the hosts, and its database that of
the path, or else of the query, or else of the last configuration that has one. -/
theorem addresses_of_resolve {c : Context} {url : String} {r : Properties} {u : UrlParts}
    (hread : UrlParts.read url = .ok (some u))
    (hparameters : u.parameters.get? Key.transform = none)
    (htransform : overrides.get? Key.transform = none)
    (hoverrides : SaysNoAddress overrides)
    (h : c.resolve url overrides = .ok (some r)) :
    Addresses r u.hosts ∧
    ∃ configurations,
      Loads c.load (namesInForce (addEmbedding c.environment u.properties overrides) overrides)
        configurations ∧
      r.database? = u.database.or
        ((u.parameters.get? Key.database).or (lastValue? configurations Key.database)) := by
  refine ⟨addresses_of_resolve_of_leaves hread hparameters htransform (hoverrides.leaves _) h, ?_⟩
  obtain ⟨configurations, hloads, rfl⟩ := layers_of_resolve hread hparameters htransform h
  refine ⟨configurations, hloads, ?_⟩
  have hpreset : (UrlParts.preset u.scheme).lookup Key.database = none := by
    cases u.scheme <;> decide
  have hproperties : u.properties.get? Key.database =
      u.database.or (u.parameters.get? Key.database) := by
    rw [UrlParts.get?_properties, UrlParts.lookup_ownPairs_database,
      UrlParts.lookup_parameterPairs, if_neg (by decide), hpreset, Option.or_none]
  rw [database?, get?_overlay, get?_erase, hoverrides.database, ite_self, Option.none_or,
    get?_overlay, get?_addEmbedding _ _ _ (by decide), get?_stack, hproperties, Option.or_assoc]

/-- Neither the query nor a configuration nor the environment redirects a
connection. If no transform is named and the overrides say nothing of the
address, then the route is that of the hosts which the URL names, in their
order; the only plans that fail are a replication with less than two hosts and
a direct connection whose port is no number. A direct connection has the URL as
it is, and the database in its path, if there is one there. The bound on the
length, which every text in memory keeps, is there for the number of hosts. -/
theorem route_of_resolve (c : Context) (url : String) (overrides r : Properties) (u : UrlParts)
    (hsize : url.length < maxCount)
    (hread : UrlParts.read url = .ok (some u))
    (hparameters : u.parameters.get? Key.transform = none)
    (htransform : overrides.get? Key.transform = none)
    (hoverrides : SaysNoAddress overrides)
    (h : c.resolve url overrides = .ok (some r)) :
    Scheme.ofUrl? url = some u.scheme ∧
    (Plan.ofSettings u.scheme url r).map Strategy.ofPlan =
      Strategy.ofHosts u.scheme r.database? u.hosts ∧
    (∀ fault, Plan.ofSettings u.scheme url r = .error fault →
      fault.code = if u.scheme = .replicated then .insufficientHosts else .invalidAttribute) ∧
    (∀ target, Plan.ofSettings u.scheme url r = .ok (.direct target) →
      target.url = url ∧ target.properties = r ∧ target.database = r.database?) ∧
    ∃ configurations,
      Loads c.load (namesInForce (addEmbedding c.environment u.properties overrides) overrides)
        configurations ∧
      r.database? = u.database.or
        ((u.parameters.get? Key.database).or (lastValue? configurations Key.database)) := by
  obtain ⟨haddresses, hdatabase⟩ := addresses_of_resolve hread hparameters htransform hoverrides h
  have hscheme : Scheme.ofUrl? url = some u.scheme := by
    obtain ⟨scheme, hscheme, hrest⟩ := UrlParts.read_eq_some.mp hread
    rw [hscheme, (UrlParts.ofRest_eq_ok.mp hrest).1]
  have hlen : u.hosts.length ≤ maxCount :=
    Nat.le_trans (UrlParts.length_hosts_le_of_read hread) hsize
  have hplan := haddresses.ofSettings_eq hlen u.scheme url
  have hroute := haddresses.ofCount_eq (UrlParts.hosts_ne_nil_of_read hread) u.scheme url
  rw [hplan]
  refine ⟨hscheme, hroute, ?_, ?_, hdatabase⟩
  · intro fault hfault
    rw [hfault] at hroute
    exact Strategy.code_of_ofHosts hroute.symm
  · intro target htarget
    exact Plan.serverTarget_eq_ok (Plan.ofCount_eq_direct htarget)

/-- A configuration that would have the connection go elsewhere. -/
def hostileContext : Context where
  load := Loader.lookUp
    [("hostile", ofList [(Key.host, "evil"), (Key.indexedPort 1, "1"), (Key.hostCount, "3"),
      (Key.database, "loot")])]

/-- A URL whose query tells of another host, too. -/
def hostileUrl : String :=
  "mysql://db1:3307/?host=evil&host.1=evil&port=1&numHosts=2&useConfigs=hostile"

/-- Only the database is the configuration's, as the path names none. -/
theorem route_of_resolve_hostile :
    ∃ r, hostileContext.resolve hostileUrl (ofList [(Key.user, "u"), (Key.hostCount, "2")]) =
        .ok (some r) ∧
      (Plan.ofSettings .plain hostileUrl r).map Strategy.ofPlan =
        .ok (.direct "db1" 3307 (some "loot")) := by
  have hread : UrlParts.read hostileUrl = .ok (some
      ⟨.plain, [⟨"db1", "3307", none⟩], none,
        ofList [(Key.host, "evil"), ("host.1", "evil"), (Key.port, "1"), (Key.hostCount, "2"),
          (Key.configurations, "hostile")]⟩) := by decide +kernel
  have h : hostileContext.resolve hostileUrl (ofList [(Key.user, "u"), (Key.hostCount, "2")]) =
      .ok (some (ofList [(Key.host, "db1"), ("port.1", "3307"), (Key.hostCount, "1"),
        (Key.database, "loot"), ("host.1", "db1"), (Key.port, "3307"),
        (Key.configurations, "hostile"), (Key.user, "u")])) := by decide +kernel
  obtain ⟨_, hroute, _⟩ := route_of_resolve _ _ _ _ _ (by decide +kernel) hread
    (by decide +kernel) (by decide +kernel) (SaysNoAddress.of_keys (by decide +kernel)) h
  refine ⟨_, h, hroute.trans ?_⟩
  decide +kernel

end Context

end DbRoute
