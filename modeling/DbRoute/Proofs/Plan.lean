import DbRoute.Proofs.Outcome
import DbRoute.Topology

/-!
# How a plan comes about

A plan comes about in one of four ways, each with its scheme, its number of
hosts and what it takes from the settings. Planning fails in one of three, or
because there is no number of hosts. Whatever is to be shown of all plans is
shown of these cases.
-/

namespace DbRoute

open Outcome

/-- A URL of the scheme asks for one server, or for failover among several. -/
def Scheme.IsPlain (scheme : Scheme) : Prop :=
  scheme = .plain ∨ scheme = .launched

instance (scheme : Scheme) : Decidable scheme.IsPlain :=
  inferInstanceAs (Decidable (_ ∨ _))

namespace Plan

variable {scheme : Scheme} {url : String} {p : Properties} {count : Nat} {plan : Plan}
  {fault : Fault} {target : ServerTarget}

/-- Every host that a plan connects to. -/
def hosts : Plan → List String
  | direct target => [target.host ++ ":" ++ toString target.port]
  | failover hosts _ => hosts
  | loadBalanced hosts _ => hosts
  | replication targets => targets.roles.all

/-- The plan for settings that tell of so many hosts. -/
inductive Made (url : String) (p : Properties) : Scheme → Nat → Plan → Prop where
  | direct {scheme : Scheme} {target : ServerTarget} (hscheme : scheme.IsPlain)
      (htarget : serverTarget url p = .ok target) : Made url p scheme 1 (.direct target)
  | failover {scheme : Scheme} {count : Nat} (hscheme : scheme.IsPlain) (hcount : count ≠ 1) :
      Made url p scheme count
        (.failover ((p.erase Key.roundRobin).hostPorts count) (p.erase Key.roundRobin))
  | loadBalanced {count : Nat} (hcount : 1 ≤ count) :
      Made url p .balanced count
        (.loadBalanced ((p.erase Key.roundRobin).hostPorts count) (p.erase Key.roundRobin))
  | replication {count : Nat} (hcount : 2 ≤ count) :
      Made url p .replicated count (.replication (roleTargets p count))

/-- Why settings that tell of so many hosts make no plan. -/
inductive Refused (p : Properties) : Scheme → Nat → Fault → Prop where
  | direct {scheme : Scheme} {fault : Fault} (hscheme : scheme.IsPlain)
      (hport : p.port = .error fault) : Refused p scheme 1 fault
  | loadBalanced {count : Nat} (hcount : count < 1) : Refused p .balanced count .nothingToBalance
  | replication {count : Nat} (hcount : count < 2) : Refused p .replicated count (.noSlave count)

theorem ofCount_of_isPlain (h : scheme.IsPlain) (url : String) (p : Properties) (count : Nat) :
    ofCount scheme url p count =
      if count = 1 then (serverTarget url p).map .direct
      else .ok (.failover ((p.erase Key.roundRobin).hostPorts count) (p.erase Key.roundRobin)) := by
  rcases h with rfl | rfl <;> rfl

theorem Made.ofCount_eq (h : Made url p scheme count plan) :
    ofCount scheme url p count = .ok plan := by
  cases h with
  | direct hscheme htarget =>
      rw [ofCount_of_isPlain hscheme, if_pos rfl, htarget]
      rfl
  | failover hscheme hcount => rw [ofCount_of_isPlain hscheme, if_neg hcount]
  | loadBalanced hcount => exact if_neg (Nat.not_lt.mpr hcount)
  | replication hcount => exact if_neg (Nat.not_lt.mpr hcount)

theorem Refused.ofCount_eq (h : Refused p scheme count fault) (url : String) :
    ofCount scheme url p count = .error fault := by
  cases h with
  | direct hscheme hport =>
      rw [ofCount_of_isPlain hscheme, if_pos rfl, serverTarget, hport]
      rfl
  | loadBalanced hcount => exact if_pos hcount
  | replication hcount => exact if_pos hcount

/-- There is no other case. -/
theorem made_or_refused (scheme : Scheme) (url : String) (p : Properties) (count : Nat) :
    (∃ plan, Made url p scheme count plan) ∨ ∃ fault, Refused p scheme count fault := by
  -- Failover takes every number but one, so only the port of a single host is ever refused.
  have hplain : scheme.IsPlain →
      (∃ plan, Made url p scheme count plan) ∨ ∃ fault, Refused p scheme count fault := by
    intro hscheme
    by_cases hone : count = 1
    · subst hone
      cases hport : p.port with
      | ok port =>
          have htarget : serverTarget url p = .ok _ := map_eq_ok.mpr ⟨port, hport, rfl⟩
          exact Or.inl ⟨_, .direct hscheme htarget⟩
      | error fault => exact Or.inr ⟨fault, .direct hscheme hport⟩
    · exact Or.inl ⟨_, .failover hscheme hone⟩
  cases scheme with
  | plain => exact hplain (Or.inl rfl)
  | launched => exact hplain (Or.inr rfl)
  | balanced =>
      rcases Nat.lt_or_ge count 1 with hnone | hsome
      · exact Or.inr ⟨_, .loadBalanced hnone⟩
      · exact Or.inl ⟨_, .loadBalanced hsome⟩
  | replicated =>
      rcases Nat.lt_or_ge count 2 with hfew | hmany
      · exact Or.inr ⟨_, .replication hfew⟩
      · exact Or.inl ⟨_, .replication hmany⟩

theorem ofCount_eq_ok : ofCount scheme url p count = .ok plan ↔ Made url p scheme count plan := by
  refine ⟨fun h => ?_, Made.ofCount_eq⟩
  rcases made_or_refused scheme url p count with ⟨_, hmade⟩ | ⟨_, hrefused⟩
  · cases hmade.ofCount_eq.symm.trans h
    exact hmade
  · cases (hrefused.ofCount_eq url).symm.trans h

theorem ofCount_eq_error :
    ofCount scheme url p count = .error fault ↔ Refused p scheme count fault := by
  refine ⟨fun h => ?_, fun h => h.ofCount_eq url⟩
  rcases made_or_refused scheme url p count with ⟨_, hmade⟩ | ⟨_, hrefused⟩
  · cases hmade.ofCount_eq.symm.trans h
  · cases (hrefused.ofCount_eq url).symm.trans h
    exact hrefused

theorem ofSettings_eq_ok :
    ofSettings scheme url p = .ok plan ↔
      ∃ count, p.hostCount = .ok count ∧ Made url p scheme count plan := by
  rw [ofSettings, bind_eq_ok]
  simp only [ofCount_eq_ok]

theorem ofSettings_eq_error :
    ofSettings scheme url p = .error fault ↔
      p.hostCount = .error fault ∨
        ∃ count, p.hostCount = .ok count ∧ Refused p scheme count fault := by
  rw [ofSettings, bind_eq_error]
  simp only [ofCount_eq_error]

theorem serverTarget_eq_ok (h : serverTarget url p = .ok target) :
    target.url = url ∧ target.properties = p ∧ target.database = p.database? := by
  obtain ⟨port, _, rfl⟩ := map_eq_ok.mp h
  exact ⟨rfl, rfl, rfl⟩

theorem ofCount_eq_direct (h : ofCount scheme url p count = .ok (.direct target)) :
    serverTarget url p = .ok target := by
  cases ofCount_eq_ok.mp h with
  | direct _ htarget => exact htarget

theorem ofSettings_replicated_eq_ok :
    ofSettings .replicated url p = .ok plan ↔
      ∃ count, p.hostCount = .ok count ∧ 2 ≤ count ∧
        plan = .replication (roleTargets p count) := by
  rw [ofSettings_eq_ok]
  refine exists_congr fun count => and_congr_right fun _ => ?_
  constructor
  · intro h
    cases h with
    | direct hscheme _ => exact absurd hscheme (by decide)
    | failover hscheme _ => exact absurd hscheme (by decide)
    | replication hmany => exact ⟨hmany, rfl⟩
  · rintro ⟨hmany, rfl⟩
    exact .replication hmany

end Plan

end DbRoute
