import DbRoute.Driver
import DbRoute.Proofs.Faults
import DbRoute.Proofs.Url.Reading

/-!
# What a request for a connection comes to

A driver declines the URLs whose scheme it does not know. For any other URL it
fails to resolve the settings, or fails to plan, or asks its connector for the
plan, once. Then the connector refuses, or there is a connection that routes as
the plan has it. Nothing is registered unless there is a connection.
-/

namespace DbRoute

open Outcome

/-- The scheme is all that resolution needs to know to decline a URL. -/
theorem Context.resolve_eq_none_iff {c : Context} {url : String} {overrides : Properties} :
    c.resolve url overrides = .ok none ↔ Scheme.ofUrl? url = none := by
  rw [← UrlParts.read_eq_none_iff, resolve, bind_eq_ok]
  constructor
  · rintro ⟨parts?, hread, h⟩
    cases parts? with
    | none => exact hread
    | some parts =>
        obtain ⟨layer, _, h⟩ := bind_eq_ok.mp h
        obtain ⟨settings, _, ⟨⟩⟩ := bind_eq_ok.mp h
  · intro hread
    exact ⟨none, hread, rfl⟩

theorem Strategy.hosts_ofPlan (plan : Plan) : (ofPlan plan).hosts = plan.hosts := by
  cases plan <;> rfl

theorem Connection.start_fst (tracks : Bool) (strategy : Strategy) (session : Session)
    (t : Tracking) :
    (start tracks strategy session t).1.strategy = strategy ∧
      (start tracks strategy session t).1.session = session := by
  unfold start
  split <;> exact ⟨rfl, rfl⟩

namespace Driver

variable {d : Driver} {connector : Connector} {url : String} {overrides settings : Properties}
  {t : Tracking} {scheme : Scheme} {plan : Plan} {fault : Fault}

/-- The URL has this scheme, and its settings are these. -/
structure Resolves (d : Driver) (url : String) (overrides : Properties) (scheme : Scheme)
    (settings : Properties) : Prop where
  scheme : Scheme.ofUrl? url = some scheme
  settings : d.context.resolve url overrides = .ok (some settings)

/-! ## Planning -/

theorem plan?_eq_none : d.plan? url overrides = .ok none ↔ Scheme.ofUrl? url = none := by
  unfold plan?
  cases hscheme : Scheme.ofUrl? url with
  | none => simp
  | some scheme =>
      simp only [reduceCtorEq, iff_false]
      intro h
      obtain ⟨settings?, hsettings, h⟩ := bind_eq_ok.mp h
      cases settings? with
      | none =>
          rw [Context.resolve_eq_none_iff, hscheme] at hsettings
          cases hsettings
      | some settings =>
          obtain ⟨plan, _, ⟨⟩⟩ := bind_eq_ok.mp h

theorem plan?_of_unresolved (hscheme : Scheme.ofUrl? url = some scheme)
    (h : d.context.resolve url overrides = .error fault) :
    d.plan? url overrides = .error fault := by
  rw [plan?, hscheme, h]
  rfl

namespace Resolves

theorem plan?_eq_ok (h : d.Resolves url overrides scheme settings)
    (hplan : Plan.ofSettings scheme url settings = .ok plan) :
    d.plan? url overrides = .ok (some plan) := by
  rw [plan?, h.scheme, h.settings]
  exact congrArg (Except.map some) hplan

theorem plan?_eq_error (h : d.Resolves url overrides scheme settings)
    (hfault : Plan.ofSettings scheme url settings = .error fault) :
    d.plan? url overrides = .error fault := by
  rw [plan?, h.scheme, h.settings]
  exact congrArg (Except.map some) hfault

end Resolves

/-! ## Connecting -/

theorem connect_of_declined (h : Scheme.ofUrl? url = none) :
    d.connect connector url overrides t = ⟨[], .ok none, t⟩ := by
  rw [connect, plan?_eq_none.mpr h]

theorem connect_of_fault (h : d.plan? url overrides = .error fault) :
    d.connect connector url overrides t = ⟨[], .error fault, t⟩ := by
  rw [connect, h]

theorem connect_of_refusal {cause : String} (hplan : d.plan? url overrides = .ok (some plan))
    (h : connector plan = .error cause) :
    d.connect connector url overrides t = ⟨[plan], .error (.unableToConnect cause), t⟩ := by
  simp only [connect, hplan, h]

theorem connect_of_session {session : Session}
    (hplan : d.plan? url overrides = .ok (some plan)) (h : connector plan = .ok session) :
    d.connect connector url overrides t =
      ⟨[plan], .ok (some (Connection.start d.tracks (Strategy.ofPlan plan) session t).1),
        (Connection.start d.tracks (Strategy.ofPlan plan) session t).2⟩ := by
  simp only [connect, hplan, h]

theorem outcome_eq_none_iff :
    (d.connect connector url overrides t).outcome = .ok none ↔ Scheme.ofUrl? url = none := by
  constructor
  · intro h
    rcases hplan : d.plan? url overrides with fault | _ | plan
    · rw [connect_of_fault hplan] at h
      cases h
    · exact plan?_eq_none.mp hplan
    · cases hconnector : connector plan with
      | error cause =>
          rw [connect_of_refusal hplan hconnector] at h
          cases h
      | ok session =>
          rw [connect_of_session hplan hconnector] at h
          cases h
  · intro h
    rw [connect_of_declined h]

/-- What a request comes to, whichever way it goes. An attempt is given whole where
nothing comes of it, so that nobody was asked and nothing registered. -/
structure Answers (d : Driver) (connector : Connector) (url : String) (overrides : Properties)
    (t : Tracking) (attempt : Attempt) : Prop where
  declined_iff : attempt.outcome = .ok none ↔ Scheme.ofUrl? url = none
  declined : Scheme.ofUrl? url = none → attempt = ⟨[], .ok none, t⟩
  /-- What the scheme does not decline, nothing does. -/
  resolves : ∀ scheme, Scheme.ofUrl? url = some scheme →
    d.context.resolve url overrides ≠ .ok none
  unresolved : ∀ scheme fault, Scheme.ofUrl? url = some scheme →
    d.context.resolve url overrides = .error fault →
    attempt = ⟨[], .error fault, t⟩ ∧ fault.code = .invalidAttribute
  unplanned : ∀ scheme settings fault, d.Resolves url overrides scheme settings →
    Plan.ofSettings scheme url settings = .error fault →
    attempt = ⟨[], .error fault, t⟩ ∧
      (fault.code = .invalidAttribute ∨ fault.code = .insufficientHosts)
  asked : ∀ scheme settings plan, d.Resolves url overrides scheme settings →
    Plan.ofSettings scheme url settings = .ok plan → attempt.asked = [plan]
  refused : ∀ scheme settings plan cause, d.Resolves url overrides scheme settings →
    Plan.ofSettings scheme url settings = .ok plan → connector plan = .error cause →
    ∃ fault, attempt = ⟨[plan], .error fault, t⟩ ∧ fault.code = .unableToConnect ∧
      fault.report.source = some cause
  connected : ∀ scheme settings plan session, d.Resolves url overrides scheme settings →
    Plan.ofSettings scheme url settings = .ok plan → connector plan = .ok session →
    ∃ c, attempt.outcome = .ok (some c) ∧ c.session = session ∧
      c.strategy.topology = plan.topology ∧ c.strategy.hosts = plan.hosts

/-- What comes of every request, for all drivers, connectors, URLs, overrides and
trackers. Only the scheme declines a URL, and a fault in its settings or its plan is
the fault of the request; in neither case is the connector asked or the tracker
changed. Otherwise the connector is asked once, for the plan. If it refuses, the
fault has its cause and the tracker is as it was, and if it has a session for the
plan, the connection has the topology and the hosts of the plan. -/
theorem answers_connect (d : Driver) (connector : Connector) (url : String)
    (overrides : Properties) (t : Tracking) :
    d.Answers connector url overrides t (d.connect connector url overrides t) := by
  constructor
  · exact outcome_eq_none_iff
  · exact connect_of_declined
  · intro scheme hscheme hnone
    rw [Context.resolve_eq_none_iff, hscheme] at hnone
    cases hnone
  · intro scheme fault hscheme hfault
    exact ⟨connect_of_fault (plan?_of_unresolved hscheme hfault),
      d.context.failsAs_resolve url overrides fault hfault⟩
  · intro scheme settings fault hresolves hfault
    exact ⟨connect_of_fault (hresolves.plan?_eq_error hfault),
      Plan.failsAs_ofSettings scheme url settings fault hfault⟩
  · intro scheme settings plan hresolves hplan
    cases hconnector : connector plan with
    | error cause => rw [connect_of_refusal (hresolves.plan?_eq_ok hplan) hconnector]
    | ok session => rw [connect_of_session (hresolves.plan?_eq_ok hplan) hconnector]
  · intro scheme settings plan cause hresolves hplan hcause
    have hrefusal := connect_of_refusal (t := t) (hresolves.plan?_eq_ok hplan) hcause
    exact ⟨.unableToConnect cause, hrefusal, rfl, rfl⟩
  · intro scheme settings plan session hresolves hplan hsession
    obtain ⟨hstrategy, hstarted⟩ :=
      Connection.start_fst d.tracks (Strategy.ofPlan plan) session t
    refine ⟨_, ?_, hstarted, ?_, ?_⟩
    · rw [connect_of_session (hresolves.plan?_eq_ok hplan) hsession]
    · rw [hstrategy, Strategy.topology_ofPlan]
    · rw [hstrategy, Strategy.hosts_ofPlan]

/-- A driver without transforms and configurations. -/
def bareDriver : Driver where
  context := { load := fun name => .error (.notFound name) }

/-- A connector that knows nothing but replication. -/
def replicationOnly : Connector
  | .replication _ => .ok ⟨none, none, false⟩
  | _ => .error "no replication"

def pairUrl : String := "mysql:replication://m,s/db"

/-- What it resolves to. -/
def pairSettings : Properties :=
  .ofList [("host.1", "m"), ("port.1", "3306"), ("host.2", "s"), ("port.2", "3306"),
    (Key.hostCount, "2"), (Key.host, "m"), (Key.port, "3306"), (Key.database, "db")]

/-- The connector is asked for its two hosts, and the connection routes between them. -/
theorem answers_connect_pair :
    ∃ c, (bareDriver.connect replicationOnly pairUrl ∅ {}).outcome = .ok (some c) ∧
      c.strategy.topology = .replication ∧ c.strategy.hosts = ["m:3306", "s:3306"] := by
  have hresolves : bareDriver.Resolves pairUrl ∅ .replicated pairSettings :=
    ⟨by decide +kernel, by decide +kernel⟩
  have hcounted : pairSettings.hostCount = .ok 2 := by decide +kernel
  have hplan : Plan.ofSettings .replicated pairUrl pairSettings = .ok (.replication _) :=
    Plan.ofSettings_replicated_eq_ok.mpr ⟨2, hcounted, Nat.le_refl 2, rfl⟩
  obtain ⟨c, houtcome, _, htopology, hhosts⟩ :=
    (answers_connect bareDriver replicationOnly pairUrl ∅ {}).connected _ _ _ _ hresolves hplan rfl
  exact ⟨c, houtcome, htopology, hhosts.trans (by decide +kernel)⟩

end Driver

end DbRoute
