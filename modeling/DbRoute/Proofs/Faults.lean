import DbRoute.Proofs.Plan
import DbRoute.Resolution

/-!
# What can go wrong before a connection

In reading a URL only one thing can be wrong, a host with a colon and no port. In
resolving its settings, whatever the transforms and the configurations do, it is
an attribute of the connection that is not valid, and in planning it is that or
too few hosts.
-/

namespace DbRoute

open Outcome Resolution

/-- A host with a colon and nothing behind it. -/
def Fault.IsDangling (fault : Fault) : Prop := ∃ token, fault = .danglingPort token

/-- An attribute of the connection is not valid. -/
def Fault.IsInvalid (fault : Fault) : Prop := fault.code = .invalidAttribute

/-- An attribute is not valid, or there are too few hosts. -/
def Fault.IsUnplannable (fault : Fault) : Prop :=
  fault.code = .invalidAttribute ∨ fault.code = .insufficientHosts

theorem Fault.IsDangling.isInvalid {fault : Fault} (h : fault.IsDangling) : fault.IsInvalid := by
  obtain ⟨token, rfl⟩ := h
  rfl

/-! ## Reading -/

namespace Host

theorem failsAs_splitPort (token : String) : FailsAs Fault.IsDangling (splitPort token) := by
  unfold splitPort
  dsimp only
  split
  · exact .ok _
  · split
    · exact .ok _
    · exact .error ⟨token, rfl⟩
    · exact .ok _

theorem failsAs_ofToken (token : String) : FailsAs Fault.IsDangling (ofToken token) :=
  (failsAs_splitPort token).bind fun _ => .ok _

theorem failsAs_readList (segment : String) : FailsAs Fault.IsDangling (readList segment) := by
  unfold readList
  dsimp only
  split
  · exact .ok _
  · exact .mapM (fun _ => failsAs_ofToken _) _

end Host

namespace UrlParts

theorem failsAs_ofRest (scheme : Scheme) (rest : List Char) :
    FailsAs Fault.IsDangling (ofRest scheme rest) :=
  (Host.failsAs_readList _).bind fun _ => .ok _

theorem failsAs_read (url : String) : FailsAs Fault.IsDangling (read url) := by
  unfold read
  split
  · exact .ok none
  · exact (failsAs_ofRest _ _).map some

end UrlParts

/-! ## Resolving -/

theorem Registry.failsAs_apply (r : Registry) (name : String) (p : Properties) :
    FailsAs Fault.IsInvalid (r.apply name p) := by
  unfold apply
  split
  · exact .error rfl
  · next transform _ =>
    have hfailed : ∀ reason, (Fault.transformFailed name reason).IsInvalid := fun _ => rfl
    exact .mapError hfailed (transform p)

namespace Resolution

variable (load : Lookup) (transforms : Registry) (layer overrides : Properties)

theorem failsAs_transformed : FailsAs Fault.IsInvalid (transformed transforms layer overrides) := by
  unfold transformed
  split
  · exact transforms.failsAs_apply _ layer
  · exact .ok layer

theorem failsAs_loadOne (name : String) : FailsAs Fault.IsInvalid (loadOne load name) := by
  refine .mapError (fun error => ?_) (load name)
  cases error <;> rfl

theorem failsAs_loadAll (names : String) : FailsAs Fault.IsInvalid (loadAll load names) := by
  unfold loadAll
  exact .foldlM (fun _ name => (failsAs_loadOne load name).map _) _ _

theorem failsAs_merge : FailsAs Fault.IsInvalid (merge load layer overrides) := by
  unfold merge
  dsimp only
  split
  · exact ((failsAs_loadAll load _).map _).bind fun _ => .ok _
  · exact .ok _

end Resolution

namespace Context

variable (c : Context) (url : String) (overrides : Properties)

theorem failsAs_urlLayer (parts : UrlParts) :
    FailsAs Fault.IsInvalid (c.urlLayer parts overrides) :=
  (failsAs_transformed c.transforms parts.properties overrides).map _

theorem failsAs_resolve : FailsAs Fault.IsInvalid (c.resolve url overrides) := by
  have hread := (UrlParts.failsAs_read url).mono fun _ h => h.isInvalid
  refine hread.bind fun parts? => ?_
  cases parts? with
  | none => exact .ok none
  | some parts =>
      refine (failsAs_urlLayer c overrides parts).bind fun layer => ?_
      exact (failsAs_merge c.load layer overrides).bind fun _ => .ok _

end Context

/-! ## Planning -/

namespace Properties

theorem failsAs_hostCount (p : Properties) : FailsAs Fault.IsInvalid p.hostCount := by
  unfold hostCount
  split
  · exact .error rfl
  · split
    · exact .ok _
    · exact .error rfl

theorem failsAs_port (p : Properties) : FailsAs Fault.IsInvalid p.port := by
  unfold port
  split
  · exact .ok _
  · split
    · exact .ok _
    · exact .error rfl

end Properties

namespace Plan

theorem Refused.isUnplannable {p : Properties} {scheme : Scheme} {count : Nat} {fault : Fault}
    (h : Refused p scheme count fault) : fault.IsUnplannable := by
  cases h with
  | direct _ hport => exact Or.inl (p.failsAs_port fault hport)
  | loadBalanced => exact Or.inr rfl
  | replication => exact Or.inr rfl

theorem failsAs_ofSettings (scheme : Scheme) (url : String) (p : Properties) :
    FailsAs Fault.IsUnplannable (ofSettings scheme url p) := by
  intro fault h
  rcases ofSettings_eq_error.mp h with hcount | ⟨count, _, hrefused⟩
  · exact Or.inl (p.failsAs_hostCount fault hcount)
  · exact hrefused.isUnplannable

end Plan

end DbRoute
