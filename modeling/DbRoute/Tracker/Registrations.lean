/-!
# Registrations

The register of live connections and their sockets. To release a registration
is to forget it and to close its socket by force, once; when that fails the
registration is gone all the same. To deregister one is to forget it and leave
its socket alone. Numbers are given out once and never again.
-/

namespace DbRoute

/-- What a socket does when it is closed by force. -/
inductive ForcedClose where
  | succeeds
  | fails (reason : String)
  | panics
  deriving DecidableEq

structure Socket where
  number : Nat
  forcedClose : ForcedClose
  deriving DecidableEq

inductive ReleaseError where
  | failed (reason : String)
  | panicked
  deriving DecidableEq

def ReleaseError.text : ReleaseError → String
  | failed reason => "failed to release network resources: " ++ reason
  | panicked => "network resource release panicked"

/-- Closes a socket by force. -/
def ForcedClose.run : ForcedClose → Except ReleaseError Unit
  | succeeds => .ok ()
  | fails reason => .error (.failed reason)
  | panics => .error .panicked

/-- A connection that is watched: its number, the state that it observes
without keeping it alive, and its socket. -/
structure Registration where
  id : Nat
  state : Nat
  socket : Socket
  deriving DecidableEq

structure Registrations where
  nextId : Nat := 1
  /-- In the order of their numbers. -/
  live : List Registration := []
  /-- How many sockets have been closed by force without a failure. -/
  released : Nat := 0
  /-- Whose sockets have been closed by force, failures included, in order. -/
  forced : List Registration := []
  deriving DecidableEq

namespace Registrations

def find? (r : Registrations) (id : Nat) : Option Registration :=
  r.live.find? (·.id == id)

def has (r : Registrations) (id : Nat) : Bool :=
  (r.find? id).isSome

def count (r : Registrations) : Nat := r.live.length

def ids (r : Registrations) : List Nat := r.live.map (·.id)

def forget (r : Registrations) (id : Nat) : Registrations :=
  { r with live := r.live.filter (·.id != id) }

def register (r : Registrations) (state : Nat) (socket : Socket) : Nat × Registrations :=
  (r.nextId, { r with nextId := r.nextId + 1, live := r.live ++ [⟨r.nextId, state, socket⟩] })

/-- Whether there was such a registration, and the register without it. -/
def deregister (r : Registrations) (id : Nat) : Bool × Registrations :=
  (r.has id, r.forget id)

/-- Whether a socket was closed, or how that failed; there is nothing to close
where the registration is gone. -/
def release (r : Registrations) (id : Nat) : Except ReleaseError Bool × Registrations :=
  match r.find? id with
  | none => (.ok false, r)
  | some found =>
      let rest := { r.forget id with forced := r.forced ++ [found] }
      match found.socket.forcedClose.run with
      | .ok () => (.ok true, { rest with released := r.released + 1 })
      | .error e => (.error e, rest)

/-- Releases one after the other, whatever comes of each. -/
def releaseAll (r : Registrations) (ids : List Nat) : Registrations :=
  ids.foldl (fun r id => (r.release id).2) r

/-- How often the socket of the given number has been closed by force. -/
def closes (r : Registrations) (socket : Nat) : Nat :=
  r.forced.countP (·.socket.number == socket)

end Registrations

end DbRoute
