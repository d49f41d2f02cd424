import DbRoute.Catalogue
import DbRoute.Connection

/-!
# The driver

The driver resolves a URL, plans its topology, and asks a connector for the
session that the plan calls for, once. URLs of other schemes are declined.
Nothing is asked and nothing registered where the settings do not resolve or
make no plan.
-/

namespace DbRoute

/-- Which tracker, if any, watches the connections of a driver. -/
inductive TrackerChoice where
  /-- The one that all of a process shares. -/
  | processWide
  | own
  | off
  deriving DecidableEq

structure Driver where
  context : Context
  tracker : TrackerChoice := .processWide

/-- Whoever makes sessions: the session for a plan, or the cause of a refusal. -/
abbrev Connector := Plan → Except String Session

/-- What came of a request for a connection. -/
structure Attempt where
  /-- The plans that the connector was asked for. -/
  asked : List Plan
  /-- None where the URL was declined. -/
  outcome : Except Fault (Option Connection)
  tracking : Tracking

namespace Driver

def majorVersion : Nat := 0

def minorVersion : Nat := 4

def tracks (d : Driver) : Bool := d.tracker != .off

/-- The plan for a URL; none if the URL is declined. -/
def plan? (d : Driver) (url : String) (overrides : Properties) : Except Fault (Option Plan) :=
  match Scheme.ofUrl? url with
  | none => .ok none
  | some scheme => do
      match ← d.context.resolve url overrides with
      | none => return none
      | some settings => return some (← Plan.ofSettings scheme url settings)

def connect (d : Driver) (connector : Connector) (url : String) (overrides : Properties)
    (t : Tracking) : Attempt :=
  match d.plan? url overrides with
  | .error fault => ⟨[], .error fault, t⟩
  | .ok none => ⟨[], .ok none, t⟩
  | .ok (some plan) =>
      match connector plan with
      | .error cause => ⟨[plan], .error (.unableToConnect cause), t⟩
      | .ok session =>
          let (connection, t) := Connection.start d.tracks (Strategy.ofPlan plan) session t
          ⟨[plan], .ok (some connection), t⟩

end Driver

/-- Connections by name, and the tracker that their drivers share. -/
structure Pool where
  connections : List (String × Connection) := []
  tracking : Tracking := {}

namespace Pool

def find? (p : Pool) (name : String) : Option Connection :=
  p.connections.lookup name

def put (p : Pool) (name : String) (c : Connection) : Pool :=
  { p with connections := (name, c) :: p.connections.filter (·.1 != name) }

/-- Closes a connection, which stays in the pool. -/
def close (p : Pool) (name : String) : Option (Except Fault Connection) × Pool :=
  match p.find? name with
  | none => (none, p)
  | some c =>
      match c.close p.tracking with
      | .error fault => (some (.error fault), p)
      | .ok (c, tracking) => (some (.ok c), { p with tracking }.put name c)

/-- Drops a connection and lets the sweep take every notice. -/
def drop (p : Pool) (name : String) : Pool :=
  match p.find? name with
  | none => p
  | some c =>
      { connections := p.connections.filter (·.1 != name)
        tracking := (c.drop p.tracking).drain }

/-- Connects and keeps the connection, if there is one, under a name. Whichever
connection had the name before is dropped. -/
def connect (p : Pool) (d : Driver) (connector : Connector) (name url : String)
    (overrides : Properties) : Attempt × Pool :=
  let attempt := d.connect connector url overrides p.tracking
  let p := { p with tracking := attempt.tracking }
  match attempt.outcome with
  | .ok (some c) => (attempt, (p.drop name).put name c)
  | _ => (attempt, p)

/-- What the users of a pool may do. -/
inductive Op where
  | connect (driver : Driver) (connector : Connector) (name url : String)
      (overrides : Properties)
  | close (name : String)
  | drop (name : String)

def step (p : Pool) : Op → Pool
  | .connect d connector name url overrides => (p.connect d connector name url overrides).2
  | .close name => (p.close name).2
  | .drop name => p.drop name

def run (p : Pool) (history : List Op) : Pool := history.foldl step p

end Pool

end DbRoute
