import DbRoute.Settings
import DbRoute.Url

/-!
# Topology

The scheme of a URL and the number of its hosts decide how to connect:

* a plain URL, or one of a launched server, with one host directly, and else
  with failover;
* a load-balanced URL over all its hosts, of which there is at least one;
* a replication URL with at least two hosts, which are split into masters to
  write to and slaves to read from.

If the first host of a replication URL is a descriptor, the descriptors say
which hosts are masters; otherwise the first host is the only one.
-/

namespace DbRoute

inductive Topology where
  | direct
  | failover
  | loadBalanced
  | replication
  deriving DecidableEq

def Topology.name : Topology → String
  | direct => "direct"
  | failover => "failover"
  | loadBalanced => "load-balanced"
  | replication => "replication"

/-- Hosts to write to and hosts to read from, with their ports or as descriptors. -/
structure Roles where
  masters : List String
  slaves : List String
  deriving DecidableEq

namespace Roles

def all (r : Roles) : List String := r.masters ++ r.slaves

def descriptorRoles (hosts : List String) : Roles :=
  let split := hosts.partition fun h => Host.isMasterText h.toList
  ⟨split.1, split.2⟩

/-- The first host is the master. -/
def leadingMaster : List String → Roles
  | [] => ⟨[], []⟩
  | h :: hosts => ⟨[h], hosts⟩

def ofSettings (p : Properties) (count : Nat) : Roles :=
  if Host.isDescriptorText (p.hostPort 1).toList then
    descriptorRoles ((List.range count).map fun i =>
      (p.indexedHost? (i + 1)).getD Properties.missing)
  else leadingMaster (p.hostPorts count)

end Roles

structure ServerTarget where
  host : String
  port : Nat
  database : Option String
  url : String
  properties : Properties
  deriving DecidableEq

structure RoleTargets where
  roles : Roles
  masterProperties : Properties
  slaveProperties : Properties
  deriving DecidableEq

/-- What a connector is asked to build. -/
inductive Plan where
  | direct (target : ServerTarget)
  | failover (hosts : List String) (properties : Properties)
  | loadBalanced (hosts : List String) (properties : Properties)
  | replication (targets : RoleTargets)
  deriving DecidableEq

namespace Plan

def topology : Plan → Topology
  | direct _ => .direct
  | failover _ _ => .failover
  | loadBalanced _ _ => .loadBalanced
  | replication _ => .replication

def serverTarget (url : String) (p : Properties) : Except Fault ServerTarget :=
  p.port.map fun port => ⟨p.host, port, p.database?, url, p⟩

/-- The keys that say where the first `count` hosts are. -/
def addressKeys (count : Nat) : List String :=
  (List.range count).flatMap (fun i => [Key.indexedHost (i + 1), Key.indexedPort (i + 1)]) ++
    [Key.hostCount, Key.host, Key.port]

/-- Neither side of a replicated connection is told any address; the reading side is marked. -/
def roleTargets (p : Properties) (count : Nat) : RoleTargets :=
  let stripped := p.eraseAll (addressKeys count)
  ⟨Roles.ofSettings p count, stripped, stripped.set Key.slaveMark "true"⟩

/-- The plan for a URL of the given scheme and its settings, which tell of `count` hosts. -/
def ofCount (scheme : Scheme) (url : String) (p : Properties) (count : Nat) : Except Fault Plan :=
  let kept := p.erase Key.roundRobin
  match scheme with
  | .balanced =>
      if count < 1 then .error .nothingToBalance
      else .ok (.loadBalanced (kept.hostPorts count) kept)
  | .replicated =>
      if count < 2 then .error (.noSlave count)
      else .ok (.replication (roleTargets p count))
  | .plain | .launched =>
      if count = 1 then (serverTarget url p).map .direct
      else .ok (.failover (kept.hostPorts count) kept)

/-- The plan for a URL of the given scheme and its settings. -/
def ofSettings (scheme : Scheme) (url : String) (p : Properties) : Except Fault Plan := do
  ofCount scheme url p (← p.hostCount)

end Plan

end DbRoute
