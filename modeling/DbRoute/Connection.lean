import DbRoute.Topology
import DbRoute.Tracker.Tracking

/-!
# Connections

A connection is a session to one or more servers and the strategy by which it
routes between them. If it is tracked it holds a guard, until it is closed; a
close that fails leaves it tracked. A connection that is dropped gives up its
hold on the session first and then its guard.
-/

namespace DbRoute

/-- A session as its connector hands it over. -/
structure Session where
  /-- The socket behind it, unless the session opts out of tracking. -/
  socket : Option Socket
  /-- The cause for which it refuses to close. -/
  closeFailure : Option String
  closed : Bool
  deriving DecidableEq

def Session.close (s : Session) : Except Fault Session :=
  match s.closeFailure with
  | some cause => .error (.closeFailed cause)
  | none => .ok { s with closed := true }

inductive Strategy where
  | direct (host : String) (port : Nat) (database : Option String)
  | failover (hosts : List String)
  | loadBalanced (hosts : List String)
  | replicated (roles : Roles)
  deriving DecidableEq

namespace Strategy

def topology : Strategy → Topology
  | direct .. => .direct
  | failover _ => .failover
  | loadBalanced _ => .loadBalanced
  | replicated _ => .replication

/-- Every host that the strategy may route to. -/
def hosts : Strategy → List String
  | direct host port _ => [host ++ ":" ++ toString port]
  | failover hosts => hosts
  | loadBalanced hosts => hosts
  | replicated roles => roles.all

def ofPlan : Plan → Strategy
  | .direct target => direct target.host target.port target.database
  | .failover hosts _ => failover hosts
  | .loadBalanced hosts _ => loadBalanced hosts
  | .replication targets => replicated targets.roles

theorem topology_ofPlan (plan : Plan) : (ofPlan plan).topology = plan.topology := by
  cases plan <;> rfl

end Strategy

structure Connection where
  strategy : Strategy
  session : Session
  /-- The number it was registered under, if it ever was. -/
  registration : Option Nat
  /-- Whether it still holds its guard. -/
  guarded : Bool
  deriving DecidableEq

namespace Connection

/-- The number under which the connection is tracked. -/
def trackingId (c : Connection) : Option Nat :=
  if c.guarded then c.registration else none

def isClosed (c : Connection) : Bool := c.session.closed

/-- A connection with the given session, tracked if there is a socket to track. -/
def start (tracks : Bool) (strategy : Strategy) (session : Session) (t : Tracking) :
    Connection × Tracking :=
  match tracks, session.socket with
  | true, some socket =>
      let (id, t) := t.register none socket
      (⟨strategy, session, some id, true⟩, t)
  | _, _ => (⟨strategy, session, none, false⟩, t)

/-- Closes the session and then the guard. -/
def close (c : Connection) (t : Tracking) : Except Fault (Connection × Tracking) :=
  c.session.close.map fun session =>
    ({ c with session, guarded := false },
      match c.trackingId with
      | some id => (t.close id).2
      | none => t)

/-- What dropping the connection does to the tracker, before any sweep. -/
def drop (c : Connection) (t : Tracking) : Tracking :=
  match c.registration with
  | none => t
  | some id =>
      let t := (t.dropHandle id).2
      if c.guarded then (t.dropGuard id).2 else t

end Connection

end DbRoute
