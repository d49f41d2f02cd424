import DbRoute.Proofs.Roles

/-!
# The table of topologies

The scheme of a URL and the number of its hosts choose the topology from a table.
A plan follows the table and connects to as many hosts as there are. Where the
table has no row for so few hosts, load balancing and replication refuse them. A
plain URL does not: it fails over among no hosts, since failover takes every
number but one.
-/

namespace DbRoute

open Properties

/-- The rows of the table. -/
inductive Topology.Listed : Scheme → Nat → Topology → Prop where
  | direct {scheme : Scheme} (hscheme : scheme.IsPlain) : Listed scheme 1 .direct
  | failover {scheme : Scheme} {count : Nat} (hscheme : scheme.IsPlain) (hmany : 2 ≤ count) :
      Listed scheme count .failover
  | loadBalanced {count : Nat} (hsome : 1 ≤ count) : Listed .balanced count .loadBalanced
  | replication {count : Nat} (hmany : 2 ≤ count) : Listed .replicated count .replication

/-- The least number of hosts for which the table has a row. -/
def Scheme.leastHosts : Scheme → Nat
  | .plain => 1
  | .launched => 1
  | .balanced => 1
  | .replicated => 2

theorem Scheme.leastHosts_of_isPlain {scheme : Scheme} (h : scheme.IsPlain) :
    scheme.leastHosts = 1 := by
  rcases h with rfl | rfl <;> rfl

/-- Below the least number of hosts there is no row, and from it on there is one. -/
theorem Topology.exists_listed_iff {scheme : Scheme} {count : Nat} :
    (∃ topology, Listed scheme count topology) ↔ scheme.leastHosts ≤ count := by
  constructor
  · rintro ⟨_, hscheme | ⟨hscheme, hmany⟩ | hsome | hmany⟩
    · exact (Scheme.leastHosts_of_isPlain hscheme).le
    · exact (Scheme.leastHosts_of_isPlain hscheme).le.trans (Nat.le_of_succ_le hmany)
    · exact hsome
    · exact hmany
  · intro hleast
    have hplain : scheme.IsPlain → ∃ topology, Listed scheme count topology := by
      intro hscheme
      rw [Scheme.leastHosts_of_isPlain hscheme] at hleast
      rcases Nat.eq_or_lt_of_le hleast with rfl | hmany
      · exact ⟨_, .direct hscheme⟩
      · exact ⟨_, .failover hscheme hmany⟩
    cases scheme with
    | plain => exact hplain (Or.inl rfl)
    | launched => exact hplain (Or.inr rfl)
    | balanced => exact ⟨_, .loadBalanced hleast⟩
    | replicated => exact ⟨_, .replication hleast⟩

theorem Properties.length_hostPorts (p : Properties) (count : Nat) :
    (p.hostPorts count).length = count := by
  rw [hostPorts, List.length_map, List.length_range]

theorem Roles.length_all_ofSettings (p : Properties) (count : Nat) :
    (ofSettings p count).all.length = count := by
  obtain ⟨masters, slaves, hsplits, hroles⟩ := splits_ofSettings p count
  have hlength := (hsplits.map (entry p)).length_eq
  rw [List.length_map, List.length_range] at hlength
  rw [hroles]
  exact hlength

namespace Plan

variable {scheme : Scheme} {url : String} {p : Properties} {count : Nat} {plan : Plan}
  {fault : Fault}

theorem Made.length_hosts (h : Made url p scheme count plan) : plan.hosts.length = count := by
  cases h with
  | direct => rfl
  | failover => exact Properties.length_hostPorts _ _
  | loadBalanced => exact Properties.length_hostPorts _ _
  | replication => exact Roles.length_all_ofSettings _ _

theorem Made.listed (h : Made url p scheme count plan) (hleast : scheme.leastHosts ≤ count) :
    Topology.Listed scheme count plan.topology := by
  cases h with
  | direct hscheme => exact .direct hscheme
  | failover hscheme hone =>
      rw [Scheme.leastHosts_of_isPlain hscheme] at hleast
      exact .failover hscheme (by omega)
  | loadBalanced hsome => exact .loadBalanced hsome
  | replication hmany => exact .replication hmany

/-- The one plan that the table does not have. -/
def unlisted (p : Properties) : Plan := .failover [] (p.erase Key.roundRobin)

theorem made_unlisted (hscheme : scheme.IsPlain) (url : String) (p : Properties) :
    Made url p scheme 0 (unlisted p) :=
  .failover hscheme Nat.zero_ne_one

/-- A plan is made below the least number only of no hosts at all, for a plain URL. -/
theorem Made.eq_unlisted (h : Made url p scheme count plan) (hfew : count < scheme.leastHosts) :
    scheme.IsPlain ∧ count = 0 ∧ plan = unlisted p := by
  cases h with
  | direct hscheme =>
      rw [Scheme.leastHosts_of_isPlain hscheme] at hfew
      exact absurd hfew (Nat.lt_irrefl 1)
  | failover hscheme =>
      rw [Scheme.leastHosts_of_isPlain hscheme] at hfew
      obtain rfl := Nat.lt_one_iff.mp hfew
      exact ⟨hscheme, rfl, rfl⟩
  | loadBalanced hsome => exact absurd hfew (Nat.not_lt.mpr hsome)
  | replication hmany => exact absurd hfew (Nat.not_lt.mpr hmany)

theorem Refused.code_eq (h : Refused p scheme count fault) (hfew : count < scheme.leastHosts) :
    fault.code = .insufficientHosts := by
  cases h with
  | direct hscheme =>
      rw [Scheme.leastHosts_of_isPlain hscheme] at hfew
      exact absurd hfew (Nat.lt_irrefl 1)
  | loadBalanced => rfl
  | replication => rfl

/-- From the least number of hosts on only the port of a single host is refused. -/
theorem refused_iff (hleast : scheme.leastHosts ≤ count) :
    Refused p scheme count fault ↔ scheme.IsPlain ∧ count = 1 ∧ p.port = .error fault := by
  constructor
  · intro h
    cases h with
    | direct hscheme hport => exact ⟨hscheme, rfl, hport⟩
    | loadBalanced hnone => exact absurd hleast (Nat.not_le.mpr hnone)
    | replication hfew => exact absurd hleast (Nat.not_le.mpr hfew)
  · rintro ⟨hscheme, rfl, hport⟩
    exact .direct hscheme hport

/-- Plans and the table, for every scheme, URL and settings. A plan that there is
connects to as many hosts as the settings tell of and has the topology of their
row, but for that of a plain URL without hosts, which fails over among none. From
the least number of hosts on, nothing can be wrong but the port of a single host.
Below it there is that plan for a plain URL, and for the others there are too few
hosts. -/
theorem follows_table (scheme : Scheme) (url : String) (p : Properties) :
    (∀ plan, ofSettings scheme url p = .ok plan →
      ∃ count, p.hostCount = .ok count ∧ plan.hosts.length = count ∧
        (Topology.Listed scheme count plan.topology ∨
          scheme.IsPlain ∧ count = 0 ∧ plan = unlisted p)) ∧
    ∀ count, p.hostCount = .ok count →
      (scheme.leastHosts ≤ count → ∀ fault, ofSettings scheme url p = .error fault ↔
        scheme.IsPlain ∧ count = 1 ∧ p.port = .error fault) ∧
      (count < scheme.leastHosts → ¬scheme.IsPlain →
        ∃ fault, ofSettings scheme url p = .error fault ∧ fault.code = .insufficientHosts) ∧
      (count < scheme.leastHosts → scheme.IsPlain →
        ofSettings scheme url p = .ok (unlisted p)) := by
  constructor
  · intro plan h
    obtain ⟨count, hcount, hmade⟩ := ofSettings_eq_ok.mp h
    refine ⟨count, hcount, hmade.length_hosts, ?_⟩
    rcases Nat.lt_or_ge count scheme.leastHosts with hfew | hleast
    · exact Or.inr (hmade.eq_unlisted hfew)
    · exact Or.inl (hmade.listed hleast)
  · intro count hcount
    have hplan : ofSettings scheme url p = ofCount scheme url p count := by
      rw [ofSettings, hcount]
      rfl
    rw [hplan]
    refine ⟨fun hleast fault => ofCount_eq_error.trans (refused_iff hleast), ?_, ?_⟩
    · intro hfew hscheme
      rcases made_or_refused scheme url p count with ⟨plan, hmade⟩ | ⟨fault, hrefused⟩
      · exact absurd (hmade.eq_unlisted hfew).1 hscheme
      · exact ⟨fault, hrefused.ofCount_eq url, hrefused.code_eq hfew⟩
    · intro hfew hscheme
      rw [Scheme.leastHosts_of_isPlain hscheme] at hfew
      obtain rfl := Nat.lt_one_iff.mp hfew
      exact (made_unlisted hscheme url p).ofCount_eq

/-- Three hosts, by a number with a blank and a sign, of which one has a name. -/
def threeHosts : Properties := ofList [(Key.hostCount, " +3"), (Key.indexedHost 2, "b")]

/-- Three hosts are split into a master and two slaves, and one host is too few. -/
theorem follows_table_threeHosts :
    (∃ plan, ofSettings .replicated "mysql:replication://" threeHosts = .ok plan ∧
      plan.hosts.length = 3 ∧ Topology.Listed .replicated 3 plan.topology) ∧
    ∃ fault, ofSettings .replicated "mysql:replication://" (threeHosts.set Key.hostCount "1") =
      .error fault ∧ fault.code = .insufficientHosts := by
  have hcounted : threeHosts.hostCount = .ok 3 := by decide +kernel
  have hplan : ofSettings .replicated "mysql:replication://" threeHosts = .ok _ :=
    ofSettings_replicated_eq_ok.mpr ⟨3, hcounted, Nat.le_succ 2, rfl⟩
  constructor
  · obtain ⟨hmade, _⟩ := follows_table .replicated "mysql:replication://" threeHosts
    obtain ⟨count, hcount, hlength, hlisted⟩ := hmade _ hplan
    obtain rfl := Except.ok.inj (hcounted.symm.trans hcount)
    exact ⟨_, hplan, hlength, hlisted.resolve_right fun h => absurd h.2.1 (by decide)⟩
  · have hone : (threeHosts.set Key.hostCount "1").hostCount = .ok 1 := by decide +kernel
    obtain ⟨_, hcounts⟩ := follows_table .replicated "mysql:replication://"
      (threeHosts.set Key.hostCount "1")
    exact (hcounts 1 hone).2.1 (by decide) (by decide)

end Plan

namespace Context

/-- A transform that says that there is no host. -/
def emptying : Context where
  load := Loader.lookUp []
  transforms := ⟨[("zero", Transform.ofEdits [.set Key.hostCount "0"])]⟩

/-- A URL with a host. -/
def emptiedUrl : String := "mysql://h/db?propertiesTransform=zero"

/-- What it resolves to. -/
def emptiedSettings : Properties :=
  ofList [(Key.transform, "zero"), ("host.1", "h"), ("port.1", "3306"), (Key.hostCount, "0"),
    (Key.host, "h"), (Key.port, "3306"), (Key.database, "db")]

/-- Where a transform has set the number of hosts to zero, a plain URL has a plan
for no hosts, which is in no row of the table. Load balancing and replication
refuse the same settings. -/
theorem plan_for_no_hosts :
    ∃ r, emptying.resolve emptiedUrl ∅ = .ok (some r) ∧ r.hostCount = .ok 0 ∧
      (¬∃ topology, Topology.Listed .plain 0 topology) ∧
      (∃ plan, Plan.ofSettings .plain emptiedUrl r = .ok plan ∧ plan.topology = .failover ∧
        plan.hosts = []) ∧
      Plan.ofSettings .balanced emptiedUrl r = .error .nothingToBalance ∧
      Plan.ofSettings .replicated emptiedUrl r = .error (.noSlave 0) := by
  have hcounted : emptiedSettings.hostCount = .ok 0 := by decide +kernel
  refine ⟨emptiedSettings, by decide +kernel, hcounted, ?_,
    ⟨Plan.unlisted emptiedSettings, ?_, rfl, rfl⟩, ?_, ?_⟩
  · rw [Topology.exists_listed_iff]
    exact Nat.not_succ_le_zero 0
  · exact Plan.ofSettings_eq_ok.mpr ⟨0, hcounted, Plan.made_unlisted (Or.inl rfl) _ _⟩
  · exact Plan.ofSettings_eq_error.mpr (Or.inr ⟨0, hcounted, .loadBalanced Nat.one_pos⟩)
  · exact Plan.ofSettings_eq_error.mpr (Or.inr ⟨0, hcounted, .replication Nat.two_pos⟩)

end Context

end DbRoute
