import DbRoute.Proofs.Outcome
import DbRoute.Proofs.Pool.Ledger
import DbRoute.Proofs.Tracker.Settled
import Mathlib.Order.BooleanAlgebra.Set

/-!
# The life cycle of a connection

What a pool does agrees with its ledger. The tracker holds exactly what the
ledger tracks, each registration with its guard, and has closed by force
exactly what was abandoned. So a connection is tracked from its start to its
first successful close, and its socket is closed by force once if it is dropped
in between, and never otherwise.
-/

namespace DbRoute

open Tracking (Settled)

/-! ## Connections and their entries -/

namespace Connection

variable {c c' : Connection} {e : Ledger.Entry} {t t' : Tracking} {count : Nat}
  {tracked : Set Registration} {abandoned : List Registration}

/-- The connection is what its entry in the ledger says. -/
structure Matches (c : Connection) (e : Ledger.Entry) : Prop where
  registration : c.registration = e.registration.map Registration.id
  guarded : c.guarded = e.tracked?.isSome
  closeFailure : c.session.closeFailure = e.closeFailure

theorem setOf_mem_some (x : Registration) : {y | y ∈ some x} = {x} := by
  ext y
  simp [eq_comm]

theorem setOf_mem_none : {y | y ∈ (none : Option Registration)} = ∅ := by
  ext y
  simp

theorem Matches.registration_of_tracked (h : c.Matches e) {x : Registration}
    (hx : e.tracked? = some x) : c.registration = some x.id := by
  rw [h.registration, (Ledger.Entry.tracked?_eq_some.mp hx).2]
  rfl

theorem Matches.trackingId (h : c.Matches e) : c.trackingId = e.tracked?.map Registration.id := by
  rw [Connection.trackingId, h.guarded]
  cases hx : e.tracked? with
  | none => rfl
  | some x => exact h.registration_of_tracked hx

/-- A new connection is registered if its driver tracks and its session has a socket. -/
theorem settled_start {l : Ledger} (h : t.Settled l.registered tracked abandoned)
    (tracks : Bool) (strategy : Strategy) (session : Session) :
    (start tracks strategy session t).1.Matches
        ⟨l.newRegistration? tracks session, session.closeFailure, false⟩ ∧
      (start tracks strategy session t).2.Settled
        (l.registered + (l.newRegistration? tracks session).toList.length)
        ({x | x ∈ l.newRegistration? tracks session} ∪ tracked) abandoned := by
  cases hnew : l.newRegistration? tracks session with
  | none =>
      have hstart : start tracks strategy session t = (⟨strategy, session, none, false⟩, t) := by
        obtain ⟨_ | socket, closeFailure, closed⟩ := session
        · cases tracks <;> rfl
        · cases tracks with
          | false => rfl
          | true => cases hnew
      rw [hstart, setOf_mem_none, Set.empty_union]
      exact ⟨⟨rfl, rfl, rfl⟩, h⟩
  | some x =>
      obtain ⟨rfl, socket, hsocket, rfl⟩ := Ledger.mem_newRegistration?.mp hnew
      have hstart : start true strategy session t =
          (⟨strategy, session, some t.registrations.nextId, true⟩, (t.register none socket).2) := by
        obtain ⟨_, _, _⟩ := session
        cases hsocket
        rfl
      rw [hstart, setOf_mem_some, Set.singleton_union]
      exact ⟨⟨congrArg some h.nextId, rfl, rfl⟩, h.register socket⟩

theorem close_eq_error {fault : Fault} :
    c.close t = .error fault ↔
      ∃ cause, c.session.closeFailure = some cause ∧ fault = .closeFailed cause := by
  rw [close, Session.close]
  cases c.session.closeFailure with
  | none => simp [Except.map]
  | some cause => simp [Except.map, eq_comm]

/-- A successful close ends the tracking. -/
theorem settled_close (h : t.Settled count tracked abandoned) (hm : c.Matches e)
    (htracked : ∀ x ∈ e.tracked?, x ∈ tracked) (hclose : c.close t = .ok (c', t')) :
    e.closeFailure = none ∧ c'.Matches { e with closed := true } ∧
      t'.Settled count (tracked \ {x | x ∈ e.tracked?}) abandoned := by
  obtain ⟨session, hsession, hresult⟩ := Outcome.map_eq_ok.mp hclose
  obtain ⟨rfl, rfl⟩ := Prod.mk.inj hresult
  have hwilling : c.session.closeFailure = none ∧ session.closeFailure = none := by
    rw [Session.close] at hsession
    split at hsession
    · cases hsession
    · next hnone =>
      cases hsession
      exact ⟨hnone, hnone⟩
  have hnone : e.closeFailure = none := hm.closeFailure.symm.trans hwilling.1
  refine ⟨hnone, ⟨hm.registration, rfl, hwilling.2.trans hnone.symm⟩, ?_⟩
  rw [hm.trackingId]
  cases hx : e.tracked? with
  | none =>
      rw [setOf_mem_none, Set.sdiff_empty]
      exact h
  | some x =>
      rw [setOf_mem_some]
      exact h.close (htracked x hx)

/-- A connection that is dropped while it is tracked is abandoned. -/
theorem settled_drop (h : t.Settled count tracked abandoned) (hm : c.Matches e)
    (htracked : ∀ x ∈ e.tracked?, x ∈ tracked) :
    (c.drop t).drain.Settled count (tracked \ {x | x ∈ e.tracked?})
      (abandoned ++ e.tracked?.toList) := by
  have hguarded := hm.guarded
  cases hx : e.tracked? with
  | none =>
      rw [hx] at hguarded
      have hdrop : (c.drop t).Settled count tracked abandoned := by
        unfold drop
        split
        · exact h
        · rw [hguarded]
          exact h.dropHandle _
      rw [setOf_mem_none, Set.sdiff_empty, Option.toList_none, List.append_nil]
      exact hdrop.drain
  | some x =>
      rw [hx] at hguarded
      have hdrop : c.drop t = ((t.dropHandle x.id).2.dropGuard x.id).2 := by
        rw [drop, hm.registration_of_tracked hx, hguarded]
        rfl
      rw [setOf_mem_some, hdrop]
      exact (h.dropHandle x.id).dropGuard (htracked x hx)

end Connection

/-! ## A pool and its ledger -/

namespace Pool

variable {p : Pool} {l : Ledger} {name : String} {c : Connection}

/-- A pool without connections, whose tracker has a sweep or has none. -/
def start (sweeping : Bool) : Pool := { tracking := Tracking.start sweeping }

theorem lookup_filter_ne (connections : List (String × Connection)) (name other : String) :
    (connections.filter (·.1 != name)).lookup other =
      if other = name then none else connections.lookup other := by
  induction connections with
  | nil => simp
  | cons entry connections ih =>
      by_cases hentry : entry.1 = name
      · rw [List.filter_cons_of_neg (by simpa using hentry), ih, Pairs.lookup_cons_eq, hentry]
        by_cases h : other = name <;> simp [h]
      · rw [List.filter_cons_of_pos (by simpa using hentry), Pairs.lookup_cons_eq,
          Pairs.lookup_cons_eq, ih]
        by_cases h : other = entry.1
        · subst h
          simp [hentry]
        · simp [h]

theorem find?_put (p : Pool) (name other : String) (c : Connection) :
    (p.put name c).find? other = if other = name then some c else p.find? other := by
  rw [find?, put, Pairs.lookup_cons_eq, lookup_filter_ne]
  by_cases h : other = name
  · rw [if_pos h, if_pos h]
  · rw [if_neg h, if_neg h, if_neg h]
    rfl

theorem find?_drop (p : Pool) (name other : String) :
    (p.drop name).find? other = if other = name then none else p.find? other := by
  rw [drop]
  cases h : p.find? name with
  | none =>
      by_cases ho : other = name
      · rw [ho, if_pos rfl]
        exact h
      · rw [if_neg ho]
  | some c => exact lookup_filter_ne p.connections name other

/-- What comes of a request for a connection: nothing, or a new connection under its name. -/
theorem connect_cases (p : Pool) (d : Driver) (connector : Connector) (name url : String)
    (overrides : Properties) :
    (d.session? connector url overrides = none ∧
      (p.connect d connector name url overrides).2 = p) ∨
    ∃ session strategy, d.session? connector url overrides = some session ∧
      (p.connect d connector name url overrides).2 =
        ((⟨p.connections, (Connection.start d.tracks strategy session p.tracking).2⟩ :
          Pool).drop name).put name (Connection.start d.tracks strategy session p.tracking).1 := by
  unfold connect Driver.connect Driver.session?
  rcases hplan : d.plan? url overrides with fault | _ | plan
  · exact Or.inl ⟨rfl, rfl⟩
  · exact Or.inl ⟨rfl, rfl⟩
  · cases hsession : connector plan with
    | error cause => exact Or.inl ⟨by simp [hsession, Except.toOption], by simp [hsession]⟩
    | ok session =>
        exact Or.inr ⟨session, Strategy.ofPlan plan, by simp [hsession, Except.toOption],
          by simp [hsession]⟩

/-- The pool is what the ledger says. -/
structure Follows (p : Pool) (l : Ledger) : Prop where
  settled : p.tracking.Settled l.registered l.tracked l.abandoned
  numbered : l.Numbered
  connections : ∀ name, Option.Rel Connection.Matches (p.find? name) (l.live name)

theorem follows_start (sweeping : Bool) : (start sweeping).Follows {} where
  settled := by
    have hnone : ({} : Ledger).tracked = ∅ := by
      ext x
      simp [Ledger.tracked, Ledger.tracked?]
    rw [hnone]
    exact Tracking.settled_start sweeping
  numbered := Ledger.numbered_empty
  connections := fun _ => .none

/-- A name is free in both, or has a connection that matches its entry. -/
theorem rel_cases {c? : Option Connection} {e? : Option Ledger.Entry}
    (h : Option.Rel Connection.Matches c? e?) :
    (c? = none ∧ e? = none) ∨ ∃ c e, c? = some c ∧ e? = some e ∧ c.Matches e := by
  cases h with
  | none => exact Or.inl ⟨rfl, rfl⟩
  | some hm => exact Or.inr ⟨_, _, rfl, rfl, hm⟩

/-- To drop a name takes out what the ledger tracks under it, whatever else the
tracker may hold. -/
theorem settled_drop {tracked : Set Registration} {count : Nat}
    (hsettled : p.tracking.Settled count tracked l.abandoned)
    (hconnection : Option.Rel Connection.Matches (p.find? name) (l.live name))
    (htracked : ∀ x ∈ l.tracked? name, x ∈ tracked) :
    (p.drop name).tracking.Settled count (tracked \ {x | x ∈ l.tracked? name})
      (l.drop name).abandoned := by
  rw [drop, Ledger.drop]
  rw [Ledger.tracked?] at htracked ⊢
  rcases rel_cases hconnection with ⟨hfree, he⟩ | ⟨c, e, hc, he, hm⟩
  · rw [hfree, he, Option.bind_none, Connection.setOf_mem_none, Set.sdiff_empty,
      Option.toList_none, List.append_nil]
    exact hsettled
  · rw [hc, he]
    rw [he] at htracked
    exact Connection.settled_drop hsettled hm htracked

theorem rel_update {c? : Option Connection} {e? : Option Ledger.Entry}
    (hconnections : ∀ name, Option.Rel Connection.Matches (p.find? name) (l.live name))
    (h : Option.Rel Connection.Matches c? e?) (name other : String) :
    Option.Rel Connection.Matches (if other = name then c? else p.find? other)
      (Function.update l.live name e? other) := by
  rw [Function.update_apply]
  split
  · exact h
  · exact hconnections other

theorem Follows.drop (h : p.Follows l) (name : String) : (p.drop name).Follows (l.drop name) where
  settled := by
    have htracked : (l.drop name).tracked = l.tracked \ {x | x ∈ l.tracked? name} := by
      rw [Ledger.drop, h.numbered.tracked_update, Option.bind_none, Connection.setOf_mem_none,
        Set.union_empty]
    rw [htracked]
    exact settled_drop h.settled (h.connections name) fun _ hx => ⟨name, hx⟩
  numbered := h.numbered.drop name
  connections := by
    intro other
    rw [find?_drop]
    exact rel_update h.connections .none name other

theorem Follows.close (h : p.Follows l) (name : String) :
    (p.close name).2.Follows (l.close name) := by
  rcases rel_cases (h.connections name) with ⟨hfree, he⟩ | ⟨c, e, hc, he, hm⟩
  · rw [Pool.close, Ledger.close, hfree, he]
    exact h
  · have htracked : l.tracked? name = e.tracked? := by rw [Ledger.tracked?, he]; rfl
    cases hclose : c.close p.tracking with
    | error fault =>
        obtain ⟨cause, hcause, rfl⟩ := Connection.close_eq_error.mp hclose
        have hunchanged : l.close name = l :=
          Ledger.close_of_failure he (hm.closeFailure.symm.trans hcause)
        rw [Pool.close, hc, hunchanged]
        dsimp only
        rw [hclose]
        exact h
    | ok closed =>
        obtain ⟨c', t'⟩ := closed
        obtain ⟨hnone, hm', hsettled⟩ := Connection.settled_close h.settled hm
          (fun x hx => ⟨name, htracked.trans hx⟩) hclose
        have hpool : (p.close name).2 = ({ p with tracking := t' } : Pool).put name c' := by
          rw [Pool.close, hc]
          dsimp only
          rw [hclose]
        rw [hpool, Ledger.close_of_success he hnone]
        constructor
        · rw [h.numbered.tracked_update, htracked]
          have hclosed : {x | x ∈ (some { e with closed := true }).bind Ledger.Entry.tracked?} =
              (∅ : Set Registration) := Connection.setOf_mem_none
          rw [hclosed, Set.union_empty]
          exact hsettled
        · rw [← Ledger.close_of_success he hnone]
          exact h.numbered.close name
        · intro other
          rw [find?_put]
          exact rel_update h.connections (.some hm') name other

/-- A new connection takes the place of whatever had its name. -/
theorem Follows.connect (h : p.Follows l) (tracks : Bool) (strategy : Strategy)
    (session : Session) (name : String) :
    (((⟨p.connections, (Connection.start tracks strategy session p.tracking).2⟩ : Pool).drop
      name).put name (Connection.start tracks strategy session p.tracking).1).Follows
        (l.connect tracks name session) := by
  obtain ⟨hm, hstart⟩ := Connection.settled_start h.settled tracks strategy session
  constructor
  · rw [h.numbered.tracked_connect]
    exact settled_drop (p := ⟨p.connections, _⟩) hstart (h.connections name)
      fun x hx => Or.inr ⟨name, hx⟩
  · exact h.numbered.connect tracks name session
  · intro other
    rw [find?_put, find?_drop]
    have hrel := rel_update h.connections (.some hm) name other
    by_cases ho : other = name
    · rw [if_pos ho] at hrel ⊢
      exact hrel
    · rw [if_neg ho] at hrel ⊢
      rw [if_neg ho]
      exact hrel

theorem Follows.step (h : p.Follows l) (op : Op) : (p.step op).Follows (l.step op) := by
  cases op with
  | connect d connector name url overrides =>
      rw [Pool.step, Ledger.step]
      rcases p.connect_cases d connector name url overrides with
        ⟨hsession, hpool⟩ | ⟨session, strategy, hsession, hpool⟩
      · rw [hsession, hpool]
        exact h
      · rw [hsession, hpool]
        exact h.connect d.tracks strategy session name
  | close name => exact h.close name
  | drop name => exact h.drop name

theorem Follows.run (h : p.Follows l) (history : List Op) :
    (p.run history).Follows (l.run history) := by
  induction history generalizing p l with
  | nil => exact h
  | cons op history ih => exact ih (h.step op)

/-! ## The registers of both -/

theorem Follows.mem_ids_iff (h : p.Follows l) {id : Nat} :
    id ∈ p.tracking.registrations.ids ↔ ∃ name x, l.tracked? name = some x ∧ x.id = id := by
  rw [Registrations.ids, List.mem_map]
  constructor
  · rintro ⟨x, hx, rfl⟩
    obtain ⟨name, hname⟩ := (h.settled.live x).mp hx
    exact ⟨name, x, hname, rfl⟩
  · rintro ⟨name, x, hname, rfl⟩
    exact ⟨x, (h.settled.live x).mpr ⟨name, hname⟩, rfl⟩

theorem Follows.trackingId_eq (h : p.Follows l) (name : String) :
    (p.find? name).bind Connection.trackingId = (l.tracked? name).map Registration.id := by
  rw [Ledger.tracked?]
  rcases rel_cases (h.connections name) with ⟨hfree, he⟩ | ⟨c, e, hc, he, hm⟩
  · rw [hfree, he]
    rfl
  · rw [hc, he]
    exact hm.trackingId

/-- A number belongs to one connection, so it is registered only as long as
that connection is tracked. -/
theorem Follows.trackingId_iff (h : p.Follows l) (hc : p.find? name = some c) (id : Nat) :
    c.trackingId = some id ↔
      c.registration = some id ∧ id ∈ p.tracking.registrations.ids := by
  have htracking := h.trackingId_eq name
  rw [hc, Option.bind_some] at htracking
  rw [htracking, h.mem_ids_iff, Option.map_eq_some_iff]
  rcases rel_cases (h.connections name) with ⟨hfree, _⟩ | ⟨c', e, hc', he, hm⟩
  · rw [hc] at hfree
    cases hfree
  · obtain rfl : c = c' := Option.some.inj (hc.symm.trans hc')
    have hregistered : l.registration? name = e.registration := by
      rw [Ledger.registration?, he]
      rfl
    rw [hm.registration, ← hregistered, Option.map_eq_some_iff]
    constructor
    · rintro ⟨x, hx, rfl⟩
      exact ⟨⟨x, Ledger.registration?_of_tracked? hx, rfl⟩, name, x, hx, rfl⟩
    · rintro ⟨⟨x, hx, rfl⟩, other, y, hy, hid⟩
      have hname := h.numbered.name_eq (Ledger.registration?_of_tracked? hy) hx hid
      rw [hname] at hy
      exact ⟨y, hy, hid⟩

theorem Follows.isSome_eq (h : p.Follows l) (name : String) :
    (p.find? name).isSome = (l.live name).isSome := by
  rcases rel_cases (h.connections name) with ⟨hfree, he⟩ | ⟨c, e, hc, he, _⟩
  · rw [hfree, he]
    rfl
  · rw [hc, he]
    rfl

theorem Follows.registration_eq (h : p.Follows l) (name : String) :
    (p.find? name).bind Connection.registration =
      (l.registration? name).map Registration.id := by
  rw [Ledger.registration?]
  rcases rel_cases (h.connections name) with ⟨hfree, he⟩ | ⟨c, e, hc, he, hm⟩
  · rw [hfree, he]
    rfl
  · rw [hc, he]
    exact hm.registration

theorem Follows.exists_matches (h : p.Follows l) {e : Ledger.Entry} (he : l.live name = some e) :
    ∃ c, p.find? name = some c ∧ c.Matches e := by
  rcases rel_cases (h.connections name) with ⟨_, hfree⟩ | ⟨c, e', hc, he', hm⟩
  · rw [hfree] at he
    cases he
  · obtain rfl : e = e' := Option.some.inj (he.symm.trans he')
    exact ⟨c, hc, hm⟩

theorem Follows.close_refused (h : p.Follows l) {e : Ledger.Entry} {cause : String}
    (he : l.live name = some e) (hcause : e.closeFailure = some cause) :
    p.close name = (some (.error (.closeFailed cause)), p) := by
  obtain ⟨c, hc, hm⟩ := h.exists_matches he
  have hrefused : c.close p.tracking = .error (.closeFailed cause) :=
    Connection.close_eq_error.mpr ⟨cause, hm.closeFailure.trans hcause, rfl⟩
  rw [Pool.close, hc]
  dsimp only
  rw [hrefused]

theorem Follows.close_accepted (h : p.Follows l) {e : Ledger.Entry}
    (he : l.live name = some e) (hnone : e.closeFailure = none) :
    ∃ c, (p.close name).1 = some (.ok c) ∧ c.trackingId = none := by
  obtain ⟨c, hc, hm⟩ := h.exists_matches he
  cases hclose : c.close p.tracking with
  | error fault =>
      obtain ⟨cause, hcause, _⟩ := Connection.close_eq_error.mp hclose
      rw [hm.closeFailure, hnone] at hcause
      cases hcause
  | ok closed =>
      obtain ⟨c', t'⟩ := closed
      obtain ⟨_, hm', _⟩ := Connection.settled_close h.settled hm
        (fun x hx => ⟨name, Option.bind_eq_some_iff.mpr ⟨e, he, hx⟩⟩) hclose
      refine ⟨c', ?_, hm'.trackingId⟩
      rw [Pool.close, hc]
      dsimp only
      rw [hclose]

/-- What holds between a pool and its ledger, however the sessions and their
sockets behave. -/
structure LifeCycle (p : Pool) (l : Ledger) : Prop where
  /-- The same connections are live. -/
  names : ∀ name, (p.find? name).isSome = (l.live name).isSome
  /-- Registered, once each, is exactly what is live, was registered, and has
  not been closed with success. -/
  ids_nodup : p.tracking.registrations.ids.Nodup
  mem_ids_iff : ∀ id, id ∈ p.tracking.registrations.ids ↔ ∃ name e x,
    l.live name = some e ∧ e.closed = false ∧ e.registration = some x ∧ x.id = id
  /-- A connection was registered under the number that the ledger gave it, and
  has it as tracking number exactly as long as it is registered. -/
  registration_eq : ∀ name, (p.find? name).bind Connection.registration =
    (l.registration? name).map Registration.id
  trackingId_iff : ∀ name c, p.find? name = some c → ∀ id, c.trackingId = some id ↔
    c.registration = some id ∧ id ∈ p.tracking.registrations.ids
  /-- A close that the session refuses fails with its cause and changes nothing. -/
  close_refused : ∀ name e cause, l.live name = some e → e.closeFailure = some cause →
    p.close name = (some (.error (.closeFailed cause)), p) ∧
      (Fault.closeFailed cause).report.code = .closeFailed ∧
      (Fault.closeFailed cause).report.source = some cause
  /-- Any other close succeeds and ends the tracking. -/
  close_accepted : ∀ name e, l.live name = some e → e.closeFailure = none →
    ∃ c, (p.close name).1 = some (.ok c) ∧ c.trackingId = none
  /-- Closed by force, once each, is exactly what was dropped while it was tracked. -/
  forced_eq : p.tracking.registrations.forced = l.abandoned
  forced_nodup : p.tracking.registrations.forcedIds.Nodup

/-- Over any history of requests the tracker holds exactly the live connections
that were registered and that no close has ended, each close that fails leaves
everything as it was, and closed by force are exactly the sockets of those
connections that were dropped while they were tracked, each of them once. -/
theorem lifeCycle_run (sweeping : Bool) (history : List Op) :
    LifeCycle ((start sweeping).run history) (Ledger.run {} history) := by
  have h : ((start sweeping).run history).Follows (Ledger.run {} history) :=
    (follows_start sweeping).run history
  have hnumbered := h.settled.sound.numbered
  refine ⟨h.isSome_eq, hnumbered.live_nodup, ?_, h.registration_eq, ?_, ?_, ?_,
    h.settled.forced, hnumbered.forced_nodup⟩
  · intro id
    rw [h.mem_ids_iff]
    constructor
    · rintro ⟨name, x, hx, hid⟩
      obtain ⟨e, he, htracked⟩ := Option.bind_eq_some_iff.mp hx
      obtain ⟨hopen, hregistered⟩ := Ledger.Entry.tracked?_eq_some.mp htracked
      exact ⟨name, e, x, he, hopen, hregistered, hid⟩
    · rintro ⟨name, e, x, he, hopen, hregistered, hid⟩
      have htracked := Ledger.Entry.tracked?_eq_some.mpr ⟨hopen, hregistered⟩
      exact ⟨name, x, Option.bind_eq_some_iff.mpr ⟨e, he, htracked⟩, hid⟩
  · intro name c hc id
    exact h.trackingId_iff hc id
  · intro name e cause he hcause
    exact ⟨h.close_refused he hcause, rfl, rfl⟩
  · intro name e he hnone
    exact h.close_accepted he hnone

/-- A close that is refused leaves the drop to close the socket, and one that succeeds does not. -/
example :
    let driver : Driver := { context := { load := fun name => .error (.notFound name) } }
    let connect (name : String) (number : Nat) (refusal : Option String) : Op :=
      .connect driver (fun _ => .ok ⟨some ⟨number, .panics⟩, refusal, false⟩) name "mysql://h" ∅
    let p := (start true).run [connect "a" 7 (some "busy"), connect "b" 8 none, .close "a",
      .close "b", .drop "b", .drop "a"]
    p.tracking.registrations.forced.map (·.socket.number) = [7] := by decide +kernel

end Pool

end DbRoute
