import DbRoute.Proofs.Branches

/-!
# What a plan hands over

A connector is given the settings of the connection, but for a few keys: those of
one server whole, those for failover and load balancing without the rotation
through hosts, and those for replication without the addresses of the hosts that
are counted. The rest keep their values and their order, however much a key looks
like one that is left out.
-/

namespace DbRoute

open Properties

variable {p q : Properties} {gone : String → Prop} [DecidablePred gone] {key : String}
  {count n : Nat}

/-! ## Leaving keys out -/

/-- The pairs of `p` in their order, but for those of the keys that are gone. -/
def LeavesOut (gone : String → Prop) [DecidablePred gone] (p q : Properties) : Prop :=
  q.pairs = p.pairs.filter fun pair => ¬gone pair.1

theorem LeavesOut.get?_eq (h : LeavesOut gone p q) (hkey : ¬gone key) :
    q.get? key = p.get? key := by
  have hlookup : ∀ pairs : List Pair,
      (pairs.filter fun pair => ¬gone pair.1).lookup key = pairs.lookup key := by
    intro pairs
    induction pairs with
    | nil => rfl
    | cons pair pairs ih =>
        by_cases hgone : gone pair.1
        · have hne : key ≠ pair.1 := fun e => hkey (e ▸ hgone)
          rw [List.filter_cons_of_neg (by simpa using hgone), ih, Pairs.lookup_cons_eq, if_neg hne]
        · rw [List.filter_cons_of_pos (by simpa using hgone), Pairs.lookup_cons_eq,
            Pairs.lookup_cons_eq, ih]
  rw [get?, get?, h, hlookup]

theorem leavesOut_erase (p : Properties) (key : String) :
    LeavesOut (· = key) p (p.erase key) := rfl

/-! ## The addresses of a replication -/

/-- A key tells where one of the first `count` hosts is, or how many there are. -/
def TellsAddress (count : Nat) (key : String) : Prop :=
  key ∈ [Key.hostCount, Key.host, Key.port] ∨
    ∃ n, 1 ≤ n ∧ n ≤ count ∧ (key = Key.indexedHost n ∨ key = Key.indexedPort n)

theorem mem_addressKeys_iff : key ∈ Plan.addressKeys count ↔ TellsAddress count key := by
  rw [mem_addressKeys, TellsAddress, or_comm]
  refine or_congr_right ⟨?_, ?_⟩
  · rintro ⟨i, hi, hkey⟩
    exact ⟨i + 1, Nat.le_add_left 1 i, hi, hkey⟩
  · rintro ⟨n, hpos, hle, hkey⟩
    obtain ⟨i, hi, rfl⟩ := exists_index_iff.mpr ⟨hpos, hle⟩
    exact ⟨i, hi, hkey⟩

instance (count : Nat) : DecidablePred (TellsAddress count) :=
  fun _ => decidable_of_iff _ mem_addressKeys_iff

theorem leavesOut_eraseAll (p : Properties) (count : Nat) :
    LeavesOut (TellsAddress count) p (p.eraseAll (Plan.addressKeys count)) := by
  rw [LeavesOut, pairs_eraseAll]
  refine List.filter_congr fun pair _ => ?_
  rw [decide_eq_decide, mem_addressKeys_iff]

/-! ## Plans -/

/-- The branch to write to has all settings but the addresses, and the branch to
read from has the same, with the mark in the place of another or at the end. -/
structure RoleTargets.Keeps (p : Properties) (count : Nat) (targets : RoleTargets) : Prop where
  master : LeavesOut (TellsAddress count) p targets.masterProperties
  kept : ∀ key, ¬TellsAddress count key → targets.masterProperties.get? key = p.get? key
  marked : targets.slaveProperties.get? Key.slaveMark = some "true"
  slave : targets.slaveProperties.erase Key.slaveMark =
    targets.masterProperties.erase Key.slaveMark
  slaveKeys : targets.slaveProperties.keys =
    if Key.slaveMark ∈ targets.masterProperties.keys then targets.masterProperties.keys
    else targets.masterProperties.keys ++ [Key.slaveMark]

namespace Plan

variable {scheme : Scheme} {url : String} {plan : Plan}

/-- The settings that a plan hands over are all but those it has no use for. -/
def Keeps (p : Properties) (count : Nat) : Plan → Prop
  | direct target => target.properties = p
  | failover _ q => LeavesOut (· = Key.roundRobin) p q
  | loadBalanced _ q => LeavesOut (· = Key.roundRobin) p q
  | replication targets => targets.Keeps p count

theorem keeps_roleTargets (p : Properties) (count : Nat) : (roleTargets p count).Keeps p count := by
  have hmaster := leavesOut_eraseAll p count
  constructor
  · exact hmaster
  · exact fun _ hkey => hmaster.get?_eq hkey
  · exact (get?_set _ _ _ _).trans (if_pos rfl)
  · exact erase_set_self _ _ _
  · exact keys_set _ _ _

theorem Made.keeps (h : Made url p scheme count plan) : plan.Keeps p count := by
  cases h with
  | direct _ htarget => exact (serverTarget_eq_ok htarget).2.1
  | failover => exact leavesOut_erase p _
  | loadBalanced => exact leavesOut_erase p _
  | replication => exact keeps_roleTargets p count

/-- Every plan hands over the settings that it was made from, with nothing added,
changed or moved but the mark of the branch to read from, and nothing left out but
the rotation through hosts by failover and load balancing, and the addresses of the
hosts that are counted by replication. -/
theorem keeps_of_ofSettings (h : ofSettings scheme url p = .ok plan) :
    ∃ count, p.hostCount = .ok count ∧ plan.Keeps p count := by
  obtain ⟨count, hcount, hmade⟩ := ofSettings_eq_ok.mp h
  exact ⟨count, hcount, hmade.keeps⟩

/-- Settings with keys that look like addresses of their two hosts and are none,
and with a mark. -/
def lookAlikes : Properties :=
  ofList [(Key.indexedHost 1, "m"), ("hostname", "x"), (Key.indexedPort 1, "1"),
    (Key.indexedHost 10, "y"), (Key.slaveMark, "no"), (Key.hostCount, "2"), ("host.01", "z"),
    (Key.indexedHost 2, "s"), (Key.indexedPort 2, "2"), ("port.x", "w"), (Key.host, "m"),
    (Key.port, "1")]

/-- They are all kept, and the mark in its place. -/
theorem keeps_of_ofSettings_lookAlikes :
    ∃ targets, ofSettings .replicated "mysql:replication://m:1,s:2" lookAlikes =
        .ok (.replication targets) ∧
      targets.masterProperties.pairs = [("hostname", "x"), ("host.10", "y"),
        (Key.slaveMark, "no"), ("host.01", "z"), ("port.x", "w")] ∧
      targets.slaveProperties.keys = targets.masterProperties.keys ∧
      targets.slaveProperties.get? Key.slaveMark = some "true" := by
  have hcounted : lookAlikes.hostCount = .ok 2 := by decide +kernel
  have hplan : ofSettings .replicated "mysql:replication://m:1,s:2" lookAlikes =
      .ok (.replication (roleTargets lookAlikes 2)) :=
    ofSettings_replicated_eq_ok.mpr ⟨2, hcounted, Nat.le_refl 2, rfl⟩
  obtain ⟨count, hcount, hkeeps⟩ := keeps_of_ofSettings hplan
  obtain rfl := Except.ok.inj (hcounted.symm.trans hcount)
  have hmaster : (roleTargets lookAlikes 2).masterProperties.pairs =
      [("hostname", "x"), ("host.10", "y"), (Key.slaveMark, "no"), ("host.01", "z"),
        ("port.x", "w")] := hkeeps.master.trans (by decide +kernel)
  refine ⟨_, hplan, hmaster, hkeeps.slaveKeys.trans (if_pos ?_), hkeeps.marked⟩
  rw [keys, hmaster]
  decide +kernel

end Plan

end DbRoute
