import DbRoute.Proofs.Routing

/-!
# Roles in replication

The hosts of a replication are split into masters and slaves. None of them is
lost and none is listed twice, and in both lists they keep the order of the URL.
If the first host is a descriptor, the masters are the hosts that say of
themselves that they are, and a host is listed by its name. Otherwise the first
host is the only master, and a host is listed by its text, with its port. So the
first host decides in which form all of them are listed.
-/

namespace DbRoute

open Properties

/-! ## Splitting a list in two -/

/-- Every element of a list goes to one of two others, and both keep the order. -/
inductive Splits {α : Type} : List α → List α → List α → Prop where
  | nil : Splits [] [] []
  | left {xs ys zs : List α} (x : α) (h : Splits xs ys zs) : Splits (x :: xs) (x :: ys) zs
  | right {xs ys zs : List α} (x : α) (h : Splits xs ys zs) : Splits (x :: xs) ys (x :: zs)

namespace Splits

variable {α β : Type} {xs ys zs : List α}

theorem map (f : α → β) (h : Splits xs ys zs) : Splits (xs.map f) (ys.map f) (zs.map f) := by
  induction h with
  | nil => exact .nil
  | left x _ ih => exact .left (f x) ih
  | right x _ ih => exact .right (f x) ih

theorem length_eq (h : Splits xs ys zs) : (ys ++ zs).length = xs.length := by
  induction h with
  | nil => rfl
  | left x _ ih => exact congrArg (· + 1) ih
  | right x _ ih =>
      rw [List.length_append] at ih ⊢
      rw [List.length_cons, List.length_cons, ← ih, Nat.add_assoc]

theorem filter (p : α → Bool) (xs : List α) : Splits xs (xs.filter p) (xs.filter (!p ·)) := by
  induction xs with
  | nil => exact .nil
  | cons x xs ih =>
      cases hp : p x with
      | true =>
          rw [List.filter_cons_of_pos hp, List.filter_cons_of_neg (by simp [hp])]
          exact .left x ih
      | false =>
          rw [List.filter_cons_of_neg (by simp [hp]), List.filter_cons_of_pos (by simp [hp])]
          exact .right x ih

theorem all_right (xs : List α) : Splits xs [] xs := by
  induction xs with
  | nil => exact .nil
  | cons x xs ih => exact .right x ih

end Splits

/-! ## Roles from any properties -/

namespace Roles

/-- How the host with the number `i + 1` is listed. -/
def entry (p : Properties) (i : Nat) : String :=
  if Host.isDescriptorText (p.hostPort 1).toList then (p.indexedHost? (i + 1)).getD missing
  else p.hostPort (i + 1)

theorem descriptorRoles_map {α : Type} (f : α → String) (xs : List α) :
    descriptorRoles (xs.map f) =
      ⟨(xs.filter fun x => Host.isMasterText (f x).toList).map f,
        (xs.filter fun x => !Host.isMasterText (f x).toList).map f⟩ := by
  rw [descriptorRoles, List.partition_eq_filter_filter, List.filter_map, List.filter_map]
  rfl

/-- Whatever the properties are, every number up to the count is in one of the
two lists, once, and the numbers are in order in both. -/
theorem splits_ofSettings (p : Properties) (count : Nat) :
    ∃ masters slaves, Splits (List.range count) masters slaves ∧
      ofSettings p count = ⟨masters.map (entry p), slaves.map (entry p)⟩ := by
  -- The numbers are split and not the texts, so that two hosts with one text stay two.
  unfold ofSettings
  split
  · next hfirst =>
    have hentry : (fun i => (p.indexedHost? (i + 1)).getD missing) = entry p := by
      funext i
      rw [entry, if_pos hfirst]
    rw [hentry, descriptorRoles_map]
    exact ⟨_, _, Splits.filter _ _, rfl⟩
  · next hfirst =>
    have hentry : (fun i => p.hostPort (i + 1)) = entry p := by
      funext i
      rw [entry, if_neg hfirst]
    rw [hostPorts, hentry]
    cases count with
    | zero => exact ⟨[], [], .nil, rfl⟩
    | succ n =>
        rw [List.range_succ_eq_map, List.map_cons]
        exact ⟨[0], _, .left 0 (Splits.all_right _), rfl⟩

/-! ## Roles of the hosts of a URL -/

/-- The tests of texts by which roles are told apart come to what the hosts
themselves say, as their attributes are those of their names. -/
theorem ofHosts_eq {first : Host} {rest : List Host}
    (h : ∀ host ∈ first :: rest, host.Faithful) :
    ofHosts (first :: rest) =
      if first.isDescriptor then
        ⟨((first :: rest).filter (·.isMaster)).map (·.name),
          ((first :: rest).filter (!·.isMaster)).map (·.name)⟩
      else ⟨[first.text], rest.map Host.text⟩ := by
  have hfirst : Host.isDescriptorText first.text.toList = first.isDescriptor := by
    rw [Host.isDescriptorText_text, (h first List.mem_cons_self).isDescriptor_eq]
  have hmasters : (first :: rest).filter (fun host => Host.isMasterText host.name.toList) =
      (first :: rest).filter (·.isMaster) :=
    List.filter_congr fun host hhost => (h host hhost).isMaster_eq.symm
  have hslaves : (first :: rest).filter (fun host => !Host.isMasterText host.name.toList) =
      (first :: rest).filter (!·.isMaster) :=
    List.filter_congr fun host hhost => by rw [(h host hhost).isMaster_eq]
  rw [ofHosts, hfirst, descriptorRoles_map, hmasters, hslaves]
  rfl

end Roles

/-! ## Roles of a replication -/

namespace Context

section

variable {c : Context} {url : String} {overrides r : Properties} {u : UrlParts}
  (hsize : url.length < maxCount) (hread : UrlParts.read url = .ok (some u))
  (hmany : 2 ≤ u.hosts.length) (hparameters : u.parameters.get? Key.transform = none)
  (htransform : overrides.get? Key.transform = none)
  (hoverrides : LeavesAddresses overrides u.hosts.length)
  (h : c.resolve url overrides = .ok (some r))

include hsize hread hmany hparameters htransform hoverrides h

theorem ofSettings_of_resolve :
    Plan.ofSettings .replicated url r =
      .ok (.replication (Plan.roleTargets r u.hosts.length)) := by
  have haddresses := addresses_of_resolve_of_leaves hread hparameters htransform hoverrides h
  have hlen : u.hosts.length ≤ maxCount :=
    Nat.le_trans (UrlParts.length_hosts_le_of_read hread) hsize
  exact Plan.ofSettings_replicated_eq_ok.mpr ⟨_, haddresses.hostCount_eq hlen, hmany, rfl⟩

omit hsize hmany in
/-- The roles are those of the hosts of the URL, which are as they were written. -/
theorem roles_of_resolve :
    ∃ first rest, u.hosts = first :: rest ∧ (∀ host ∈ first :: rest, host.Faithful) ∧
      (Plan.roleTargets r u.hosts.length).roles = Roles.ofHosts (first :: rest) := by
  have hne := UrlParts.hosts_ne_nil_of_read hread
  have hfaithful := UrlParts.faithful_of_read hread
  have haddresses := addresses_of_resolve_of_leaves hread hparameters htransform hoverrides h
  obtain ⟨first, rest, hhosts⟩ := List.exists_cons_of_ne_nil hne
  rw [hhosts] at hfaithful
  refine ⟨first, rest, hhosts, hfaithful, ?_⟩
  rw [← hhosts]
  exact haddresses.roles_eq hne

end

/-- The roles of hosts. A host is a descriptor or a master by any of the tests
if it is by one of them. For all properties and counts each number up to the
count is in one of the two lists, once and in order. And for a replication URL
of at least two hosts, without a transform and with overrides that leave the
addresses alone, there is a plan with these roles: if the first host is a
descriptor, the masters are the names of the hosts that call themselves masters,
and the slaves those of all others; otherwise the first host is the master and
the others are slaves, each with its port. The bound on the length, which every
text in memory keeps, is there for the number of hosts. -/
theorem roles_of_replication :
    (∀ token host, Host.ofToken token = .ok host →
      host.isDescriptor = Host.isDescriptorText (Text.trimStart token.toList) ∧
      host.isDescriptor = Host.isDescriptorText host.name.toList ∧
      host.isDescriptor = Host.isDescriptorText host.text.toList ∧
      host.isMaster = Host.isMasterText host.name.toList) ∧
    (∀ p count, (Roles.ofSettings p count).all.length = count ∧
      ∃ masters slaves, Splits (List.range count) masters slaves ∧
        Roles.ofSettings p count =
          ⟨masters.map (Roles.entry p), slaves.map (Roles.entry p)⟩) ∧
    ∀ (c : Context) (url : String) (overrides r : Properties) (u : UrlParts),
      url.length < maxCount → UrlParts.read url = .ok (some u) → u.scheme = .replicated →
      2 ≤ u.hosts.length → u.parameters.get? Key.transform = none →
      overrides.get? Key.transform = none → LeavesAddresses overrides u.hosts.length →
      c.resolve url overrides = .ok (some r) →
      ∃ targets first rest, u.hosts = first :: rest ∧
        Plan.ofSettings u.scheme url r = .ok (.replication targets) ∧
        targets.roles = Roles.ofSettings r u.hosts.length ∧
        targets.roles =
          if first.isDescriptor then
            ⟨(u.hosts.filter (·.isMaster)).map (·.name),
              (u.hosts.filter (!·.isMaster)).map (·.name)⟩
          else ⟨[first.text], rest.map Host.text⟩ := by
  refine ⟨?_, ?_, ?_⟩
  · intro token host htoken
    have hfaithful := Host.faithful_of_ofToken htoken
    refine ⟨Host.isDescriptor_of_ofToken htoken, hfaithful.isDescriptor_eq, ?_,
      hfaithful.isMaster_eq⟩
    rw [Host.isDescriptorText_text, hfaithful.isDescriptor_eq]
  · intro p count
    obtain ⟨masters, slaves, hsplits, hroles⟩ := Roles.splits_ofSettings p count
    refine ⟨?_, masters, slaves, hsplits, hroles⟩
    have hlength := (hsplits.map (Roles.entry p)).length_eq
    rw [List.length_map, List.length_range] at hlength
    rw [hroles]
    exact hlength
  · intro c url overrides r u hsize hread hscheme hmany hparameters htransform hoverrides h
    have hplan := ofSettings_of_resolve hsize hread hmany hparameters htransform hoverrides h
    obtain ⟨first, rest, hhosts, hfaithful, hroles⟩ :=
      roles_of_resolve hread hparameters htransform hoverrides h
    refine ⟨_, first, rest, hhosts, hscheme ▸ hplan, rfl, ?_⟩
    rw [hroles, hhosts, Roles.ofHosts_eq hfaithful]

/-- Plain hosts and descriptors in one list, with a query and a configuration that
would have it otherwise. -/
def mixedUrl : String :=
  "mysql:replication://address=(host=s1)(type=slave),b:7,address=(host=m1)(type=MASTER)/db" ++
    "?host.2=evil&numHosts=9&useConfigs=hostile"

/-- The hosts of this URL. -/
def mixedHosts : List Host :=
  [⟨"address=(host=s1)(type=slave)", "3306", some (ofList [("HOST", "s1"), ("type", "slave")])⟩,
    ⟨"b", "7", none⟩,
    ⟨"address=(host=m1)(type=MASTER)", "3306",
      some (ofList [("HOST", "m1"), ("type", "MASTER")])⟩]

/-- The overrides may name a database and a number of hosts. -/
def harmlessOverrides : Properties := ofList [(Key.database, "x"), (Key.hostCount, "1")]

/-- The last host is the only master, and the plain one among the slaves. -/
theorem roles_of_replication_mixed :
    ∃ r targets, hostileContext.resolve mixedUrl harmlessOverrides = .ok (some r) ∧
      Plan.ofSettings .replicated mixedUrl r = .ok (.replication targets) ∧
      targets.roles = ⟨["address=(host=m1)(type=MASTER)"],
        ["address=(host=s1)(type=slave)", "b"]⟩ := by
  have hread : UrlParts.read mixedUrl = .ok (some
      ⟨.replicated, mixedHosts, some "db", ofList [("host.2", "evil"), (Key.hostCount, "9"),
        (Key.configurations, "hostile")]⟩) := by decide +kernel
  have h : hostileContext.resolve mixedUrl harmlessOverrides = .ok (some (ofList
      [(Key.host, "address=(host=s1)(type=slave)"), ("port.1", "3306"), (Key.hostCount, "3"),
        (Key.database, "x"), ("host.2", "b"), (Key.configurations, "hostile"),
        ("host.1", "address=(host=s1)(type=slave)"), ("port.2", "7"),
        ("host.3", "address=(host=m1)(type=MASTER)"), ("port.3", "3306"),
        (Key.port, "3306")])) :=
    (resolve_eq_some_of_no_transform hread (by decide +kernel) (by decide +kernel)).mpr
      (by decide +kernel)
  have hleaves : LeavesAddresses harmlessOverrides mixedHosts.length := by
    unfold LeavesAddresses
    decide +kernel
  obtain ⟨_, _, hroles⟩ := roles_of_replication
  obtain ⟨targets, first, rest, hhosts, hplan, _, htargets⟩ := hroles hostileContext mixedUrl
    harmlessOverrides _ _ (by decide +kernel) hread rfl (by decide) (by decide +kernel)
    (by decide +kernel) hleaves h
  obtain ⟨rfl, rfl⟩ := List.cons.inj hhosts
  exact ⟨_, targets, h, hplan, htargets.trans (by decide +kernel)⟩

end Context

/-! ## The address in an entry -/

/-- What the entry of a host tells of its address. Behind a plain first host it
is the name and the port. Behind a descriptor it is the whole text of another
descriptor and nothing else, and for a plain host the name; nothing is said here
of its port. -/
def Roles.Lists (first host : Host) (entry : String) : Prop :=
  if first.isDescriptor then
    if host.isDescriptor then entry = host.name else entry = host.name ∨ entry = host.text
  else entry = host.text

/-- The entries of hosts, one for each in their order, make up the two lists. -/
theorem Roles.exists_entries {first : Host} {rest : List Host}
    (h : ∀ host ∈ first :: rest, host.Faithful) :
    ∃ entries, List.Forall₂ (Lists first) (first :: rest) entries ∧
      Splits entries (ofHosts (first :: rest)).masters (ofHosts (first :: rest)).slaves := by
  rw [ofHosts_eq h]
  cases hfirst : first.isDescriptor with
  | true =>
      refine ⟨(first :: rest).map (·.name), ?_, (Splits.filter _ _).map _⟩
      rw [List.forall₂_map_right_iff, List.forall₂_same]
      intro host _
      rw [Lists, if_pos hfirst]
      split
      · rfl
      · exact Or.inl rfl
  | false =>
      refine ⟨(first :: rest).map Host.text, ?_,
        (Splits.left first (Splits.all_right rest)).map Host.text⟩
      rw [List.forall₂_map_right_iff, List.forall₂_same]
      intro host _
      rw [Lists, if_neg (Bool.eq_false_iff.mp hfirst)]

namespace Context

/-- The entries of a replication without transforms and overrides. There is one
for every host in the order of the URL, they are split into masters and slaves,
and each tells of the address of its host what the first host has it tell. In
particular, among hosts of one kind every plain host has its name and its port,
and every descriptor its whole text. -/
theorem addresses_in_roles (c : Context) (url : String) (r : Properties) (u : UrlParts)
    (hsize : url.length < maxCount) (hread : UrlParts.read url = .ok (some u))
    (hscheme : u.scheme = .replicated) (hmany : 2 ≤ u.hosts.length)
    (hparameters : u.parameters.get? Key.transform = none)
    (h : c.resolve url ∅ = .ok (some r)) :
    ∃ targets first rest entries, u.hosts = first :: rest ∧
      Plan.ofSettings u.scheme url r = .ok (.replication targets) ∧
      List.Forall₂ (Roles.Lists first) u.hosts entries ∧
      Splits entries targets.roles.masters targets.roles.slaves := by
  have hleaves := leavesAddresses_empty u.hosts.length
  have hplan := ofSettings_of_resolve hsize hread hmany hparameters (get?_empty _) hleaves h
  obtain ⟨first, rest, hhosts, hfaithful, hroles⟩ :=
    roles_of_resolve hread hparameters (get?_empty _) hleaves h
  obtain ⟨entries, hlists, hsplits⟩ := Roles.exists_entries hfaithful
  rw [← hhosts] at hlists
  rw [← hroles] at hsplits
  exact ⟨_, first, rest, entries, hhosts, hscheme ▸ hplan, hlists, hsplits⟩

def plainFirstUrl : String := "mysql:replication://m:1,address=(host=x)(type=master)/db"

def descriptorFirstUrl : String := "mysql:replication://address=(host=x)(type=master),s:5/db"

/-- The descriptor, as it is in both of these URLs. -/
def writtenMaster : Host :=
  ⟨"address=(host=x)(type=master)", "3306", some (ofList [("HOST", "x"), ("type", "master")])⟩

theorem read_plainFirstUrl : UrlParts.read plainFirstUrl =
    .ok (some ⟨.replicated, [⟨"m", "1", none⟩, writtenMaster], some "db", ∅⟩) := by
  rfl

theorem read_descriptorFirstUrl : UrlParts.read descriptorFirstUrl =
    .ok (some ⟨.replicated, [writtenMaster, ⟨"s", "5", none⟩], some "db", ∅⟩) := by
  rfl

theorem resolve_plainFirstUrl : hostileContext.resolve plainFirstUrl ∅ =
    .ok (some (ofList [("host.1", "m"), ("port.1", "1"),
      ("host.2", "address=(host=x)(type=master)"), ("port.2", "3306"), (Key.hostCount, "2"),
      (Key.host, "m"), (Key.port, "1"), (Key.database, "db")])) :=
  (resolve_eq_some_of_no_transform read_plainFirstUrl rfl rfl).mpr rfl

theorem resolve_descriptorFirstUrl : hostileContext.resolve descriptorFirstUrl ∅ =
    .ok (some (ofList [("host.1", "address=(host=x)(type=master)"), ("port.1", "3306"),
      ("host.2", "s"), ("port.2", "5"), (Key.hostCount, "2"),
      (Key.host, "address=(host=x)(type=master)"), (Key.port, "3306"), (Key.database, "db")])) :=
  (resolve_eq_some_of_no_transform read_descriptorFirstUrl rfl rfl).mpr rfl

/-- The descriptor has the port of a descriptor behind it, as the first host is plain. -/
theorem addresses_in_roles_plainFirst :
    ∃ r targets, hostileContext.resolve plainFirstUrl ∅ = .ok (some r) ∧
      Plan.ofSettings .replicated plainFirstUrl r = .ok (.replication targets) ∧
      Splits ["m:1", "address=(host=x)(type=master):3306"] targets.roles.masters
        targets.roles.slaves := by
  obtain ⟨targets, first, rest, entries, hhosts, hplan, hlists, hsplits⟩ :=
    addresses_in_roles _ _ _ _ (by decide +kernel) read_plainFirstUrl rfl (by decide) rfl
      resolve_plainFirstUrl
  obtain ⟨rfl, rfl⟩ := List.cons.inj hhosts
  have htexts : ∀ host entry, Roles.Lists ⟨"m", "1", none⟩ host entry → host.text = entry :=
    fun _ _ hentry => Eq.symm hentry
  have hentries : [⟨"m", "1", none⟩, writtenMaster].map Host.text = entries := by
    rw [← List.forall₂_eq_eq_eq, List.forall₂_map_left_iff]
    exact hlists.imp htexts
  subst hentries
  exact ⟨_, targets, resolve_plainFirstUrl, hplan, hsplits⟩

/-- Behind a plain host a descriptor is not listed as it is written, as it has a
port behind it, and behind a descriptor a plain host is not, as it has no port. -/
theorem address_changed_in_mixed_list :
    (∃ u r targets, UrlParts.read plainFirstUrl = .ok (some u) ∧
      hostileContext.resolve plainFirstUrl ∅ = .ok (some r) ∧
      Plan.ofSettings .replicated plainFirstUrl r = .ok (.replication targets) ∧
      ∃ host ∈ u.hosts, host.isDescriptor = true ∧ host.name ∉ targets.roles.all) ∧
    ∃ u r targets, UrlParts.read descriptorFirstUrl = .ok (some u) ∧
      hostileContext.resolve descriptorFirstUrl ∅ = .ok (some r) ∧
      Plan.ofSettings .replicated descriptorFirstUrl r = .ok (.replication targets) ∧
      ∃ host ∈ u.hosts, host.isDescriptor = false ∧ host.text ∉ targets.roles.all := by
  have hplain := ofSettings_of_resolve (by decide +kernel) read_plainFirstUrl (by decide) rfl rfl
    (leavesAddresses_empty _) resolve_plainFirstUrl
  have hdescriptor := ofSettings_of_resolve (by decide +kernel) read_descriptorFirstUrl
    (by decide) rfl rfl (leavesAddresses_empty _) resolve_descriptorFirstUrl
  exact ⟨⟨_, _, _, read_plainFirstUrl, resolve_plainFirstUrl, hplain,
      writtenMaster, by decide, rfl, by decide +kernel⟩,
    ⟨_, _, _, read_descriptorFirstUrl, resolve_descriptorFirstUrl, hdescriptor,
      ⟨"s", "5", none⟩, by decide, rfl, by decide +kernel⟩⟩

end Context

end DbRoute
