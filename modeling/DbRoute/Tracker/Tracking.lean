import DbRoute.Tracker.Registrations

/-!
# Tracking abandoned connections

A registered connection holds a handle on its state and a guard. States may be
shared; one is reachable as long as some handle on it is held. A guard that is
dropped posts a notice, and the sweep takes the notices one by one, in order,
and releases the registration that each names. Without a sweep a dropped guard
releases its registration itself. A guard that is closed deregisters instead
and posts nothing.

All that may happen to a tracker is an operation; a history is a list of them.
-/

namespace DbRoute

/-- A handle on a state, held by the connection registered under `owner`. -/
structure Handle where
  owner : Nat
  state : Nat
  deriving DecidableEq

structure Tracking where
  registrations : Registrations := {}
  handles : List Handle := []
  /-- The guards that are neither dropped nor closed. -/
  guards : List Nat := []
  /-- Notices not taken yet, oldest first. -/
  notices : List Nat := []
  sweeping : Bool := true
  deriving DecidableEq

namespace Tracking

def strongCount (t : Tracking) (state : Nat) : Nat :=
  t.handles.countP (·.state == state)

/-- The state that the given connection still holds. -/
def stateOf? (t : Tracking) (owner : Nat) : Option Nat :=
  (t.handles.find? (·.owner == owner)).map (·.state)

/-- Registers a connection that shares the state of another, or has a state of its own. -/
def register (t : Tracking) (share : Option Nat) (socket : Socket) : Nat × Tracking :=
  let state := (share.bind t.stateOf?).getD t.registrations.nextId
  let (id, registrations) := t.registrations.register state socket
  (id, { t with registrations, handles := t.handles ++ [⟨id, state⟩], guards := t.guards ++ [id] })

/-- Whether the connection held a handle, and the tracker without it. -/
def dropHandle (t : Tracking) (owner : Nat) : Bool × Tracking :=
  ((t.stateOf? owner).isSome, { t with handles := t.handles.filter (·.owner != owner) })

/-- Releases a registration; a failure is nobody's concern. -/
def cleanUp (t : Tracking) (id : Nat) : Tracking :=
  { t with registrations := (t.registrations.release id).2 }

/-- Whether there was such a guard, and the tracker after it is dropped. -/
def dropGuard (t : Tracking) (id : Nat) : Bool × Tracking :=
  if id ∈ t.guards then
    let t := { t with guards := t.guards.filter (· != id) }
    (true, if t.sweeping then { t with notices := t.notices ++ [id] } else t.cleanUp id)
  else (false, t)

/-- The sweep takes the oldest notice. -/
def sweep (t : Tracking) : Tracking :=
  match t.notices with
  | [] => t
  | id :: rest => { t with notices := rest }.cleanUp id

/-- The sweep takes every notice. -/
def drain (t : Tracking) : Tracking :=
  { t with registrations := t.registrations.releaseAll t.notices, notices := [] }

/-- Closes a guard: whether its registration was still there, if there was such a guard. -/
def close (t : Tracking) (id : Nat) : Option Bool × Tracking :=
  if id ∈ t.guards then
    let (known, registrations) := t.registrations.deregister id
    (some known, { t with registrations, guards := t.guards.filter (· != id) })
  else (none, t)

def deregister (t : Tracking) (id : Nat) : Bool × Tracking :=
  let (known, registrations) := t.registrations.deregister id
  (known, { t with registrations })

def release (t : Tracking) (id : Nat) : Except ReleaseError Bool × Tracking :=
  let (result, registrations) := t.registrations.release id
  (result, { t with registrations })

/-- The registrations whose state nobody holds any more. -/
def unreachable (t : Tracking) : List Nat :=
  (t.registrations.live.filter fun r => t.strongCount r.state == 0).map (·.id)

/-- Releases everything unreachable; the number of registrations removed. -/
def reap (t : Tracking) : Nat × Tracking :=
  (t.unreachable.length, { t with registrations := t.registrations.releaseAll t.unreachable })

inductive Op where
  /-- Registers a connection, perhaps with the state of the one registered under `share`. -/
  | register (share : Option Nat) (socket : Socket)
  | dropHandle (owner : Nat)
  | dropGuard (id : Nat)
  | sweep
  | close (id : Nat)
  | release (id : Nat)
  | deregister (id : Nat)
  | reap
  deriving DecidableEq

inductive Answer where
  | registered (id strong : Nat)
  | flag (value : Bool)
  | closed (known : Option Bool)
  | released (result : Except ReleaseError Bool)
  | removed (count : Nat)
  | done

def perform (t : Tracking) : Op → Answer × Tracking
  | .register share socket =>
      let (id, t) := t.register share socket
      (.registered id (((t.stateOf? id).map t.strongCount).getD 0), t)
  | .dropHandle owner =>
      let (held, t) := t.dropHandle owner
      (.flag held, t)
  | .dropGuard id =>
      let (known, t) := t.dropGuard id
      (.flag known, t)
  | .sweep => (.done, t.sweep)
  | .close id =>
      let (known, t) := t.close id
      (.closed known, t)
  | .release id =>
      let (result, t) := t.release id
      (.released result, t)
  | .deregister id =>
      let (known, t) := t.deregister id
      (.flag known, t)
  | .reap =>
      let (count, t) := t.reap
      (.removed count, t)

def step (t : Tracking) (op : Op) : Tracking := (t.perform op).2

def run (t : Tracking) (history : List Op) : Tracking := history.foldl step t

theorem run_append (t : Tracking) (h₁ h₂ : List Op) : t.run (h₁ ++ h₂) = (t.run h₁).run h₂ :=
  List.foldl_append

end Tracking

end DbRoute
