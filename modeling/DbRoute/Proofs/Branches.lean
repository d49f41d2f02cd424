import DbRoute.Proofs.HostCount

/-!
# What the branches of a replication are told

The two branches of a replication are told the settings without the addresses
of the hosts, and the branch to read from is marked. The addresses are taken out
by number, from one up to the number of hosts. The keys of higher numbers are
not among them, so that a host which the query, a configuration or the overrides
number too high is left in both branches. And a mark that one of them sets is
left in the branch to write to.
-/

namespace DbRoute

open Properties Resolution

variable {p branch r overrides : Properties} {key : String} {count n : Nat}

/-! ## The keys that are taken out -/

theorem exists_index_iff : (∃ i < count, n = i + 1) ↔ 1 ≤ n ∧ n ≤ count := by
  constructor
  · rintro ⟨i, hi, rfl⟩
    exact ⟨Nat.le_add_left 1 i, hi⟩
  · rintro ⟨hpos, hle⟩
    exact ⟨n - 1, by omega, (Nat.sub_add_cancel hpos).symm⟩

theorem no_dot_of_mem (h : key ∈ [Key.hostCount, Key.host, Key.port]) : '.' ∉ key.toList := by
  simp only [List.mem_cons, List.not_mem_nil, or_false] at h
  rcases h with rfl | rfl | rfl <;> decide

theorem indexedHost_mem_addressKeys :
    Key.indexedHost n ∈ Plan.addressKeys count ↔ 1 ≤ n ∧ n ≤ count := by
  have hplain : Key.indexedHost n ∉ [Key.hostCount, Key.host, Key.port] :=
    fun h => Key.indexedHost_ne (no_dot_of_mem h) rfl
  simp only [mem_addressKeys, hplain, Key.indexedHost_inj, Key.indexedHost_ne_indexedPort,
    or_false, exists_index_iff]

theorem indexedPort_mem_addressKeys :
    Key.indexedPort n ∈ Plan.addressKeys count ↔ 1 ≤ n ∧ n ≤ count := by
  have hplain : Key.indexedPort n ∉ [Key.hostCount, Key.host, Key.port] :=
    fun h => Key.indexedPort_ne (no_dot_of_mem h) rfl
  simp only [mem_addressKeys, hplain, Key.indexedPort_inj, Key.indexedHost_ne_indexedPort.symm,
    or_false, false_or, exists_index_iff]

theorem slaveMark_not_mem_addressKeys : Key.slaveMark ∉ Plan.addressKeys count := by
  rw [mem_addressKeys]
  rintro (⟨i, _, hkey | hkey⟩ | hkey)
  · exact Key.indexedHost_ne_slaveMark hkey.symm
  · exact Key.indexedPort_ne_slaveMark hkey.symm
  · exact no_dot_of_mem hkey (by decide)

/-! ## Settings without addresses -/

/-- Properties that tell of no host, whatever its number. -/
structure Unaddressed (p : Properties) : Prop where
  hostCount : p.get? Key.hostCount = none
  host : p.get? Key.host = none
  port : p.get? Key.port = none
  indexed : ∀ n, 1 ≤ n → p.indexedHost? n = none ∧ p.indexedPort? n = none

/-- Properties that tell of no host with a number above `count`. -/
def NoneAbove (count : Nat) (p : Properties) : Prop :=
  ∀ n, count < n → p.indexedHost? n = none ∧ p.indexedPort? n = none

/-- Keys without a dot, and keys of the hosts up to the count, tell of no other host. -/
theorem NoneAbove.of_keys
    (h : ∀ key ∈ p.keys, '.' ∉ key.toList ∨ key ∈ Plan.addressKeys count) : NoneAbove count p := by
  intro n hn
  refine ⟨get?_eq_none_iff.mpr fun hmem => ?_, get?_eq_none_iff.mpr fun hmem => ?_⟩
  · rcases h _ hmem with hdot | haddress
    · exact Key.indexedHost_ne hdot rfl
    · have hle := (indexedHost_mem_addressKeys.mp haddress).2
      omega
  · rcases h _ hmem with hdot | haddress
    · exact Key.indexedPort_ne hdot rfl
    · have hle := (indexedPort_mem_addressKeys.mp haddress).2
      omega

/-- A branch has the settings without the keys of addresses, whatever its mark. -/
def Strips (p : Properties) (count : Nat) (branch : Properties) : Prop :=
  ∀ key, key ≠ Key.slaveMark →
    branch.get? key = if key ∈ Plan.addressKeys count then none else p.get? key

namespace Strips

theorem get?_of_mem (h : Strips p count branch) (hkey : key ∈ Plan.addressKeys count) :
    branch.get? key = none := by
  have hne : key ≠ Key.slaveMark := fun e => slaveMark_not_mem_addressKeys (e ▸ hkey)
  rw [h key hne, if_pos hkey]

theorem indexed_of_lt (h : Strips p count branch) (hn : count < n) :
    branch.indexedHost? n = p.indexedHost? n ∧ branch.indexedPort? n = p.indexedPort? n := by
  have hhost : Key.indexedHost n ∉ Plan.addressKeys count := by
    rw [indexedHost_mem_addressKeys]
    omega
  have hport : Key.indexedPort n ∉ Plan.addressKeys count := by
    rw [indexedPort_mem_addressKeys]
    omega
  exact ⟨(h _ Key.indexedHost_ne_slaveMark).trans (if_neg hhost),
    (h _ Key.indexedPort_ne_slaveMark).trans (if_neg hport)⟩

/-- A branch tells of no host at all if and only if the settings tell of none above the count. -/
theorem unaddressed_iff (h : Strips p count branch) :
    Unaddressed branch ↔ NoneAbove count p := by
  constructor
  · intro hbranch n hn
    obtain ⟨hhost, hport⟩ := h.indexed_of_lt hn
    rw [← hhost, ← hport]
    exact hbranch.indexed n (Nat.zero_lt_of_lt hn)
  · intro hnone
    constructor
    · exact h.get?_of_mem (mem_addressKeys.mpr (Or.inr (by decide)))
    · exact h.get?_of_mem (mem_addressKeys.mpr (Or.inr (by decide)))
    · exact h.get?_of_mem (mem_addressKeys.mpr (Or.inr (by decide)))
    · intro n hpos
      by_cases hn : count < n
      · obtain ⟨hhost, hport⟩ := h.indexed_of_lt hn
        rw [hhost, hport]
        exact hnone n hn
      · have hle := Nat.le_of_not_lt hn
        exact ⟨h.get?_of_mem (indexedHost_mem_addressKeys.mpr ⟨hpos, hle⟩),
          h.get?_of_mem (indexedPort_mem_addressKeys.mpr ⟨hpos, hle⟩)⟩

end Strips

/-! ## The branches -/

namespace Plan

theorem get?_masterProperties (p : Properties) (count : Nat) (key : String) :
    (roleTargets p count).masterProperties.get? key =
      if key ∈ addressKeys count then none else p.get? key :=
  get?_eraseAll p _ key

theorem strips_masterProperties (p : Properties) (count : Nat) :
    Strips p count (roleTargets p count).masterProperties :=
  fun key _ => get?_masterProperties p count key

theorem strips_slaveProperties (p : Properties) (count : Nat) :
    Strips p count (roleTargets p count).slaveProperties := by
  intro key hne
  show ((roleTargets p count).masterProperties.set Key.slaveMark "true").get? key = _
  rw [get?_set, if_neg hne, get?_masterProperties]

end Plan

/-- Neither branch tells of a host, and only the one to read from is marked. -/
structure RoleTargets.Clean (targets : RoleTargets) : Prop where
  master : Unaddressed targets.masterProperties
  slave : Unaddressed targets.slaveProperties
  unmarked : targets.masterProperties.get? Key.slaveMark = none
  marked : targets.slaveProperties.get? Key.slaveMark = some "true"

theorem Plan.clean_roleTargets_iff (p : Properties) (count : Nat) :
    (roleTargets p count).Clean ↔ NoneAbove count p ∧ p.get? Key.slaveMark = none := by
  have hmark : (roleTargets p count).masterProperties.get? Key.slaveMark =
      p.get? Key.slaveMark := by
    rw [get?_masterProperties, if_neg slaveMark_not_mem_addressKeys]
  constructor
  · intro hclean
    exact ⟨(strips_masterProperties p count).unaddressed_iff.mp hclean.master,
      hmark.symm.trans hclean.unmarked⟩
  · rintro ⟨hnone, hunmarked⟩
    constructor
    · exact (strips_masterProperties p count).unaddressed_iff.mpr hnone
    · exact (strips_slaveProperties p count).unaddressed_iff.mpr hnone
    · exact hmark.trans hunmarked
    · show ((roleTargets p count).masterProperties.set Key.slaveMark "true").get? _ = _
      rw [get?_set, if_pos rfl]

/-! ## Where they come from -/

namespace Context

section

variable {env : Environment} {u : UrlParts} {configurations : List Properties}
  (hscheme : u.scheme = .replicated)
  (hr : ((stack configurations).overlay (addEmbedding env u.properties overrides)).overlay
    (overrides.erase Key.hostCount) = r)

include hscheme hr

/-- A key of which the URL itself says nothing is absent exactly if the overrides, the
query and the configurations all say nothing of it. -/
theorem get?_eq_none_iff_of_foreign (hown : u.ownPairs.lookup key = none)
    (hcount : key ≠ Key.hostCount) (hconfigurations : key ≠ Key.configurations) :
    r.get? key = none ↔
      ∀ source ∈ overrides :: u.parameters :: configurations, source.get? key = none := by
  have hpreset : (UrlParts.preset u.scheme).lookup key = none := by
    rw [hscheme]
    rfl
  have hproperties : u.properties.get? key = u.parameters.get? key := by
    rw [UrlParts.get?_properties, hown, UrlParts.lookup_parameterPairs, if_neg hcount, hpreset,
      Option.none_or, Option.or_none]
  rw [← hr, get?_overlay, get?_erase, if_neg hcount, get?_overlay,
    get?_addEmbedding _ _ _ hconfigurations, hproperties, get?_stack, Option.or_eq_none_iff,
    Option.or_eq_none_iff, lastValue?_eq_none_iff, List.forall_mem_cons, List.forall_mem_cons]

theorem slaveMark_eq_none_iff :
    r.get? Key.slaveMark = none ↔
      ∀ source ∈ overrides :: u.parameters :: configurations,
        source.get? Key.slaveMark = none := by
  refine get?_eq_none_iff_of_foreign hscheme hr ?_ (by decide) (by decide)
  rw [UrlParts.lookup_ownPairs_of_dot (by decide), lookup_eq_none_iff]
  intro hmem
  obtain ⟨i, _, hkey | hkey⟩ := UrlParts.mem_keys_indexedPairs hmem
  · exact Key.indexedHost_ne_slaveMark hkey.symm
  · exact Key.indexedPort_ne_slaveMark hkey.symm

theorem noneAbove_iff :
    NoneAbove u.hosts.length r ↔
      ∀ source ∈ overrides :: u.parameters :: configurations,
        NoneAbove u.hosts.length source := by
  have hforeign : ∀ n, u.hosts.length < n →
      (r.indexedHost? n = none ↔
        ∀ source ∈ overrides :: u.parameters :: configurations, source.indexedHost? n = none) ∧
      (r.indexedPort? n = none ↔
        ∀ source ∈ overrides :: u.parameters :: configurations, source.indexedPort? n = none) := by
    intro n hn
    obtain ⟨i, rfl⟩ := Nat.exists_eq_add_of_lt hn
    obtain ⟨hhost, hport⟩ := u.lookup_ownPairs_indexed (u.hosts.length + i)
    rw [List.getElem?_eq_none (Nat.le_add_right _ _)] at hhost hport
    exact ⟨get?_eq_none_iff_of_foreign hscheme hr hhost (Key.indexedHost_ne (by decide))
        (Key.indexedHost_ne (by decide)),
      get?_eq_none_iff_of_foreign hscheme hr hport (Key.indexedPort_ne (by decide))
        (Key.indexedPort_ne (by decide))⟩
  constructor
  · intro hnone source hsource n hn
    obtain ⟨hhost, hport⟩ := hnone n hn
    exact ⟨(hforeign n hn).1.mp hhost source hsource, (hforeign n hn).2.mp hport source hsource⟩
  · intro hnone n hn
    exact ⟨(hforeign n hn).1.mpr fun source hsource => (hnone source hsource n hn).1,
      (hforeign n hn).2.mpr fun source hsource => (hnone source hsource n hn).2⟩

end

/-- What the branches of a replication are told, whatever the overrides and the
configurations. The branch to write to has the settings, in their order, without
the addresses of the hosts that are counted, and the branch to read from has the
same with the mark. So they are clean if and only if the settings number no host
above the count and have no mark. Without a transform the count is that of the
hosts of the URL, and the branches are clean if and only if neither the overrides
nor the query nor a configuration in force numbers a host above it or has a mark. -/
theorem branches_of_replication (c : Context) (url : String) (overrides r : Properties)
    (u : UrlParts) (plan : Plan) (hread : UrlParts.read url = .ok (some u))
    (hscheme : u.scheme = .replicated) (h : c.resolve url overrides = .ok (some r))
    (hplan : Plan.ofSettings u.scheme url r = .ok plan) :
    ∃ targets count, plan = .replication targets ∧ r.hostCount = .ok count ∧ 2 ≤ count ∧
      targets.masterProperties.keys = r.keys.filter (· ∉ Plan.addressKeys count) ∧
      (∀ key, targets.masterProperties.get? key =
        if key ∈ Plan.addressKeys count then none else r.get? key) ∧
      targets.slaveProperties = targets.masterProperties.set Key.slaveMark "true" ∧
      (targets.Clean ↔ NoneAbove count r ∧ r.get? Key.slaveMark = none) ∧
      (url.length < maxCount → u.parameters.get? Key.transform = none →
        overrides.get? Key.transform = none →
        count = u.hosts.length ∧
        ∃ configurations,
          Loads c.load (namesInForce (addEmbedding c.environment u.properties overrides) overrides)
            configurations ∧
          (targets.Clean ↔ ∀ source ∈ overrides :: u.parameters :: configurations,
            NoneAbove count source ∧ source.get? Key.slaveMark = none)) := by
  rw [hscheme] at hplan
  obtain ⟨count, hcount, hmany, rfl⟩ := Plan.ofSettings_replicated_eq_ok.mp hplan
  have hclean := Plan.clean_roleTargets_iff r count
  refine ⟨_, count, rfl, hcount, hmany, keys_eraseAll r _, Plan.get?_masterProperties r count, rfl,
    hclean, ?_⟩
  intro hsize hparameters htransform
  have hlen : u.hosts.length ≤ maxCount :=
    Nat.le_trans (UrlParts.length_hosts_le_of_read hread) hsize
  have hhosts : r.hostCount = .ok u.hosts.length :=
    hostCount_eq_of_get? (get?_hostCount_of_resolve hread hparameters htransform h) hlen
  obtain rfl := Except.ok.inj (hcount.symm.trans hhosts)
  obtain ⟨configurations, hloads, hr⟩ := layers_of_resolve hread hparameters htransform h
  refine ⟨rfl, configurations, hloads, ?_⟩
  rw [hclean, noneAbove_iff hscheme hr, slaveMark_eq_none_iff hscheme hr, ← forall₂_and]

/-- A replication whose configuration tells of its hosts, too. -/
def countedUrl : String := "mysql:replication://m:1,s/db?useConfigs=hostile"

/-- The overrides may even give a host that is counted another name. -/
def redirectingOverrides : Properties := ofList [(Key.user, "u"), (Key.indexedHost 2, "t")]

/-- What they tell of the hosts is taken out, and nothing else. -/
theorem branches_of_replication_counted :
    ∃ r targets, hostileContext.resolve countedUrl redirectingOverrides = .ok (some r) ∧
      Plan.ofSettings .replicated countedUrl r = .ok (.replication targets) ∧ targets.Clean ∧
      targets.masterProperties.keys = [Key.database, Key.configurations, Key.user] := by
  have hread : UrlParts.read countedUrl = .ok (some
      ⟨.replicated, [⟨"m", "1", none⟩, ⟨"s", "3306", none⟩], some "db",
        ofList [(Key.configurations, "hostile")]⟩) := by decide +kernel
  have h : hostileContext.resolve countedUrl redirectingOverrides = .ok (some (ofList
      [(Key.host, "m"), ("port.1", "1"), (Key.hostCount, "2"), (Key.database, "db"),
        (Key.configurations, "hostile"), ("host.1", "m"), ("host.2", "t"), ("port.2", "3306"),
        (Key.port, "1"), (Key.user, "u")])) :=
    (resolve_eq_some_of_no_transform hread (by decide +kernel) (by decide +kernel)).mpr
      (by decide +kernel)
  have hcounted := hostCount_eq_of_get? (n := 2)
    (get?_hostCount_of_resolve hread (by decide +kernel) (by decide +kernel) h) (by decide)
  have hplan : Plan.ofSettings .replicated countedUrl _ = .ok (.replication _) :=
    Plan.ofSettings_replicated_eq_ok.mpr ⟨2, hcounted, Nat.le_refl 2, rfl⟩
  obtain ⟨targets, count, htargets, hcount, _, hkeys, _, _, hclean, _⟩ :=
    branches_of_replication _ _ _ _ _ _ hread rfl h hplan
  obtain rfl := Except.ok.inj (hcounted.symm.trans hcount)
  refine ⟨_, targets, h, htargets ▸ hplan, hclean.mpr ⟨NoneAbove.of_keys ?_, ?_⟩, ?_⟩
  · decide +kernel
  · decide +kernel
  · rw [hkeys]
    decide +kernel

/-- A query that numbers a host too high, and has the mark. -/
def residueUrl : String := "mysql:replication://m,s/db?host.3=x&replication.isSlave=yes"

/-- Both branches are told of the host, and the branch to write to has the mark. -/
theorem branches_keep_residue :
    ∃ u r targets, UrlParts.read residueUrl = .ok (some u) ∧ u.scheme = .replicated ∧
      hostileContext.resolve residueUrl ∅ = .ok (some r) ∧
      Plan.ofSettings .replicated residueUrl r = .ok (.replication targets) ∧
      targets.masterProperties.get? (Key.indexedHost 3) = some "x" ∧
      targets.slaveProperties.get? (Key.indexedHost 3) = some "x" ∧
      targets.masterProperties.get? Key.slaveMark = some "yes" := by
  have hread : UrlParts.read residueUrl = .ok (some
      ⟨.replicated, [⟨"m", "3306", none⟩, ⟨"s", "3306", none⟩], some "db",
        ofList [("host.3", "x"), (Key.slaveMark, "yes")]⟩) := by decide +kernel
  have h : hostileContext.resolve residueUrl ∅ = .ok (some (ofList
      [("host.3", "x"), (Key.slaveMark, "yes"), ("host.1", "m"), ("port.1", "3306"),
        ("host.2", "s"), ("port.2", "3306"), (Key.hostCount, "2"), (Key.host, "m"),
        (Key.port, "3306"), (Key.database, "db")])) :=
    (resolve_eq_some_of_no_transform hread (by decide +kernel) rfl).mpr (by decide +kernel)
  have hcounted := hostCount_eq_of_get? (n := 2)
    (get?_hostCount_of_resolve hread (by decide +kernel) rfl h) (by decide)
  exact ⟨_, _, _, hread, rfl, h,
    Plan.ofSettings_replicated_eq_ok.mpr ⟨2, hcounted, Nat.le_refl 2, rfl⟩,
    by decide +kernel, by decide +kernel, by decide +kernel⟩

end Context

end DbRoute
