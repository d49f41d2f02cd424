import DbRoute.Proofs.Tracker.ForcedClose
import Mathlib.Data.List.Induction

/-!
# What stays registered

As long as a registration lasts there is somebody to end it: its guard is held,
or a notice names it. So nothing is left in the register once all guards are
gone and all notices are taken. The other way round, a connection whose guard
and whose state are held stays registered and its socket open, unless somebody
releases or deregisters it by its number.

A state that nobody holds any more is held by nobody ever after, as only who
holds it can share it. This is why no reaping can have taken a registration
whose state is held now.
-/

namespace DbRoute.Tracking

variable {t : Tracking} {op : Op} {id state : Nat} {x : Registration}

/-- The registration that an operation makes, if it makes one. -/
def registeredBy (t : Tracking) : Op → List Registration
  | .register share socket =>
      [⟨t.registrations.nextId, (share.bind t.stateOf?).getD t.registrations.nextId, socket⟩]
  | _ => []

/-- The numbers that an operation takes out of the register. -/
def removedBy (t : Tracking) : Op → List Nat
  | .close id => if id ∈ t.guards then [id] else []
  | .deregister id => [id]
  | op => t.releasedBy op

/-- All registrations that a history makes, whatever becomes of them. -/
def registered (t : Tracking) : List Op → List Registration
  | [] => []
  | op :: history => t.registeredBy op ++ (t.step op).registered history

/-- The register after a step, exactly. -/
theorem mem_live_step :
    x ∈ (t.step op).registrations.live ↔
      x ∈ t.registrations.live ∧ x.id ∉ t.removedBy op ∨ x ∈ t.registeredBy op := by
  rw [registrations_step]
  cases op with
  | register share socket =>
      simp [registrationsAfter, Registrations.register, removedBy, releasedBy, registeredBy]
  | close id =>
      by_cases hid : id ∈ t.guards <;>
        simp [registrationsAfter, removedBy, registeredBy, hid, Registrations.mem_live_forget]
  | deregister id =>
      simp [registrationsAfter, removedBy, registeredBy, Registrations.mem_live_forget]
  | dropHandle _ | dropGuard _ | sweep | release _ | reap =>
      simp [registrationsAfter, removedBy, registeredBy, Registrations.mem_live_releaseAll]

theorem run_snoc (t : Tracking) (past : List Op) (op : Op) :
    t.run (past ++ [op]) = (t.run past).step op :=
  t.run_append past [op]

theorem registered_append (t : Tracking) (h₁ h₂ : List Op) :
    t.registered (h₁ ++ h₂) = t.registered h₁ ++ (t.run h₁).registered h₂ := by
  induction h₁ generalizing t with
  | nil => rfl
  | cons op h₁ ih =>
      rw [List.cons_append, registered, registered, ih, List.append_assoc]
      rfl

theorem registered_snoc (t : Tracking) (past : List Op) (op : Op) :
    t.registered (past ++ [op]) = t.registered past ++ (t.run past).registeredBy op := by
  rw [registered_append, registered, registered, List.append_nil]

/-! ## Nothing is left behind -/

/-- Whoever holds its guard, or else the sweep, will end every registration. -/
def Answered (t : Tracking) : Prop :=
  ∀ x ∈ t.registrations.live, x.id ∈ t.guards ∨ x.id ∈ t.notices

/-- A guard that goes leaves a notice, and a notice that goes ends the registration. -/
theorem mem_guards_or_notices_step (h : id ∈ t.guards ∨ id ∈ t.notices)
    (hkept : id ∉ t.removedBy op) : id ∈ (t.step op).guards ∨ id ∈ (t.step op).notices := by
  cases op with
  | register share socket =>
      rcases h with h | h
      · exact Or.inl (List.mem_append_left _ h)
      · exact Or.inr h
  | dropGuard i =>
      by_cases hi : i ∈ t.guards
      · cases hs : t.sweeping
        · simp only [removedBy, releasedBy, hi, hs, and_self, if_true, List.mem_singleton] at hkept
          simpa [step, perform, dropGuard, hi, hs, cleanUp, hkept] using h
        · by_cases hid : id = i
          · simp [step, perform, dropGuard, hi, hs, hid]
          · simpa [step, perform, dropGuard, hi, hs, hid] using h
      · simpa [step, perform, dropGuard, hi] using h
  | sweep =>
      cases hn : t.notices with
      | nil => simpa [step, perform, sweep, hn] using h
      | cons i rest =>
          simp only [removedBy, releasedBy, hn, List.take_succ_cons, List.take_zero,
            List.mem_singleton] at hkept
          simpa [step, perform, sweep, hn, cleanUp, hkept] using h
  | close i =>
      by_cases hi : i ∈ t.guards
      · simp only [removedBy, hi, if_true, List.mem_singleton] at hkept
        simpa [step, perform, close, hi, hkept] using h
      · simpa [step, perform, close, hi] using h
  | dropHandle _ | release _ | deregister _ | reap => exact h

/-- A new registration has a guard, and its state is a new one or one that is held. -/
theorem of_mem_registeredBy (h : x ∈ t.registeredBy op) :
    x.id = t.registrations.nextId ∧ x.id < (t.step op).registrations.nextId ∧
      x.id ∈ (t.step op).guards ∧
      (x.state = t.registrations.nextId ∨ ∃ handle ∈ t.handles, handle.state = x.state) := by
  cases op with
  | register share socket =>
      obtain rfl := List.mem_singleton.mp h
      refine ⟨rfl, Nat.lt_succ_self _, List.mem_append_right _ (List.mem_singleton_self _), ?_⟩
      cases hs : share.bind t.stateOf? with
      | none => exact Or.inl rfl
      | some state =>
          obtain ⟨owner, _, hstate⟩ := Option.bind_eq_some_iff.mp hs
          obtain ⟨handle, hhandle, rfl⟩ := Option.map_eq_some_iff.mp hstate
          exact Or.inr ⟨handle, List.mem_of_find?_eq_some hhandle, rfl⟩
  | dropHandle _ | dropGuard _ | sweep | close _ | release _ | deregister _ | reap =>
      exact absurd h List.not_mem_nil

theorem Answered.step (h : t.Answered) (op : Op) : (t.step op).Answered := by
  intro x hx
  rcases mem_live_step.mp hx with ⟨hlive, hkept⟩ | hnew
  · exact mem_guards_or_notices_step (h x hlive) hkept
  · exact Or.inl (of_mem_registeredBy hnew).2.2.1

theorem Answered.run (h : t.Answered) (history : List Op) : (t.run history).Answered := by
  induction history generalizing t with
  | nil => exact h
  | cons op history ih => exact ih (h.step op)

theorem answered_start (sweeping : Bool) : (start sweeping).Answered :=
  fun _ hx => absurd hx List.not_mem_nil

/-- To drain the queue is to sweep as often as there are notices. -/
theorem run_sweeps (t : Tracking) :
    t.run (List.replicate t.notices.length .sweep) = t.drain := by
  obtain ⟨registrations, handles, guards, notices, sweeping⟩ := t
  induction notices generalizing registrations with
  | nil => rfl
  | cons id notices ih => exact ih (registrations.release id).2

theorem Answered.count_drain (h : t.Answered) (hguards : t.guards = []) :
    t.drain.registrations.count = 0 := by
  apply List.length_eq_zero_iff.mpr
  apply List.eq_nil_iff_forall_not_mem.mpr
  intro x hx
  obtain ⟨hlive, hunswept⟩ := Registrations.mem_live_releaseAll.mp hx
  rcases h x hlive with hguard | hnotice
  · rw [hguards] at hguard
    exact List.not_mem_nil hguard
  · exact hunswept hnotice

/-! ## Nothing is lost -/

theorem strongCount_pos : 0 < t.strongCount state ↔ ∃ handle ∈ t.handles, handle.state = state := by
  simp [strongCount, List.countP_pos_iff]

/-- A handle was there before, or belongs to the registration that the step makes. -/
theorem mem_handles_step {handle : Handle} (h : handle ∈ (t.step op).handles) :
    handle ∈ t.handles ∨ ∃ x ∈ t.registeredBy op, handle.state = x.state := by
  cases op with
  | register share socket =>
      rcases List.mem_append.mp h with h | h
      · exact Or.inl h
      · obtain rfl := List.mem_singleton.mp h
        exact Or.inr ⟨_, List.mem_singleton_self _, rfl⟩
  | dropHandle owner => exact Or.inl (List.mem_of_mem_filter h)
  | dropGuard i =>
      by_cases hi : i ∈ t.guards
      · cases hs : t.sweeping <;> simp only [step, perform, dropGuard, hi, hs, cleanUp, if_true,
          if_false, Bool.false_eq_true] at h <;> exact Or.inl h
      · simp only [step, perform, dropGuard, hi, if_false] at h
        exact Or.inl h
  | sweep =>
      cases hn : t.notices <;> simp only [step, perform, sweep, hn, cleanUp] at h <;>
        exact Or.inl h
  | close i =>
      by_cases hi : i ∈ t.guards <;> simp only [step, perform, close, hi, if_true, if_false] at h <;>
        exact Or.inl h
  | release _ | deregister _ | reap => exact Or.inl h

/-- A state that was given out before and is held now was held all along. -/
theorem held_of_held_step (hlt : state < t.registrations.nextId)
    (h : 0 < (t.step op).strongCount state) : 0 < t.strongCount state := by
  obtain ⟨handle, hhandle, rfl⟩ := strongCount_pos.mp h
  apply strongCount_pos.mpr
  rcases mem_handles_step hhandle with hold | ⟨x, hx, hstate⟩
  · exact ⟨handle, hold, rfl⟩
  · rcases (of_mem_registeredBy hx).2.2.2 with hnew | ⟨other, hother, hshared⟩
    · exact absurd (hstate.trans hnew) (Nat.ne_of_lt hlt)
    · exact ⟨other, hother, hshared.trans hstate.symm⟩

/-- All states and numbers in use, now or earlier, have been given out. -/
structure GivenOut (t : Tracking) (made : List Registration) : Prop where
  handles_lt : ∀ handle ∈ t.handles, handle.state < t.registrations.nextId
  id_lt : ∀ x ∈ made, x.id < t.registrations.nextId
  state_lt : ∀ x ∈ made, x.state < t.registrations.nextId

theorem GivenOut.state_lt_of_registeredBy {made : List Registration} (h : t.GivenOut made)
    (hx : x ∈ t.registeredBy op) : x.state < (t.step op).registrations.nextId := by
  obtain ⟨hid, hlt, _, hstate⟩ := of_mem_registeredBy hx
  rcases hstate with hnew | ⟨handle, hhandle, hshared⟩
  · rw [hnew, ← hid]
    exact hlt
  · rw [← hshared]
    exact Nat.lt_of_lt_of_le (h.handles_lt handle hhandle) (t.nextId_le_step op)

theorem GivenOut.step {made : List Registration} (h : t.GivenOut made) (op : Op) :
    (t.step op).GivenOut (made ++ t.registeredBy op) where
  handles_lt := by
    intro handle hhandle
    rcases mem_handles_step hhandle with hold | ⟨x, hx, hstate⟩
    · exact Nat.lt_of_lt_of_le (h.handles_lt handle hold) (t.nextId_le_step op)
    · rw [hstate]
      exact h.state_lt_of_registeredBy hx
  id_lt := by
    intro x hx
    rcases List.mem_append.mp hx with hold | hnew
    · exact Nat.lt_of_lt_of_le (h.id_lt x hold) (t.nextId_le_step op)
    · exact (of_mem_registeredBy hnew).2.1
  state_lt := by
    intro x hx
    rcases List.mem_append.mp hx with hold | hnew
    · exact Nat.lt_of_lt_of_le (h.state_lt x hold) (t.nextId_le_step op)
    · exact h.state_lt_of_registeredBy hnew

theorem givenOut_run (sweeping : Bool) (history : List Op) :
    ((start sweeping).run history).GivenOut ((start sweeping).registered history) := by
  induction history using List.reverseRecOn with
  | nil => exact ⟨by simp [run, start], by simp [registered], by simp [registered]⟩
  | append_singleton past op ih =>
      rw [run_snoc, registered_snoc]
      exact ih.step op

/-- Only an explicit call takes out what is guarded and observed. -/
theorem Sound.not_mem_removedBy (h : t.Sound) (hguard : id ∈ (t.step op).guards)
    (hobs : t.Observed id) (hrelease : op ≠ .release id) (hderegister : op ≠ .deregister id) :
    id ∉ t.removedBy op := by
  intro hm
  cases op with
  | close i =>
      rw [removedBy] at hm
      split at hm
      · obtain rfl := List.mem_singleton.mp hm
        exact not_mem_guards_close t id hguard
      · exact List.not_mem_nil hm
  | deregister i => exact hderegister (by rw [List.mem_singleton.mp hm])
  | register _ _ | dropHandle _ | dropGuard _ | sweep | release _ | reap =>
      exact hrelease (h.eq_release_of_mem_releasedBy hm hguard hobs)

/-- From its registration on, a connection whose guard and whose state are held
all the time stays registered, if nobody calls for it by its number. -/
theorem mem_live_of_held (sweeping : Bool) (history : List Op) :
    ∀ x ∈ (start sweeping).registered history,
      x.id ∈ ((start sweeping).run history).guards →
      0 < ((start sweeping).run history).strongCount x.state →
      .release x.id ∉ history → .deregister x.id ∉ history →
      x ∈ ((start sweeping).run history).registrations.live := by
  induction history using List.reverseRecOn with
  | nil => exact fun x hx => absurd hx List.not_mem_nil
  | append_singleton past op ih =>
      intro x hx hguard hheld hrelease hderegister
      rw [run_snoc] at hguard hheld ⊢
      rw [registered_snoc, List.mem_append] at hx
      apply mem_live_step.mpr
      rcases hx with hold | hnew
      · -- Guard and state were held before the step, too, so the registration was there.
        have hgiven := givenOut_run sweeping past
        have hguarded : x.id ∈ ((start sweeping).run past).guards := by
          rcases mem_guards_step hguard with hg | ⟨hg, _⟩
          · exact hg
          · exact absurd hg (Nat.ne_of_lt (hgiven.id_lt x hold))
        have hholds := held_of_held_step (hgiven.state_lt x hold) hheld
        have hlive := ih x hold hguarded hholds
          (fun hm => hrelease (List.mem_append_left _ hm))
          (fun hm => hderegister (List.mem_append_left _ hm))
        refine Or.inl ⟨hlive, ?_⟩
        apply ((sound_start sweeping).run past).not_mem_removedBy hguard ⟨x, hlive, rfl, hholds⟩
        · rintro rfl
          exact hrelease (by simp)
        · rintro rfl
          exact hderegister (by simp)
      · exact Or.inr hnew

/-- Over any history the register neither leaks nor loses a connection. Every
registration has its guard held or a notice pending, so that none is left when
all guards are gone and the queue is drained, which sweeping as often as there
are notices does. And every connection that a history has registered, whose
guard is held, whose state somebody holds, and which nobody released or
deregistered by its number, is registered with its socket never closed by force. -/
theorem no_leak_and_no_loss (sweeping : Bool) (history : List Op) :
    (∀ id ∈ ((start sweeping).run history).registrations.ids,
      id ∈ ((start sweeping).run history).guards ∨
        id ∈ ((start sweeping).run history).notices) ∧
    (((start sweeping).run history).guards = [] →
      ((start sweeping).run history).drain.registrations.count = 0 ∧
      ((start sweeping).run (history ++ List.replicate
        ((start sweeping).run history).notices.length .sweep)).registrations.count = 0) ∧
    ∀ x ∈ (start sweeping).registered history,
      x.id ∈ ((start sweeping).run history).guards →
      0 < ((start sweeping).run history).strongCount x.state →
      .release x.id ∉ history → .deregister x.id ∉ history →
      x ∈ ((start sweeping).run history).registrations.live ∧
        ((start sweeping).run history).forcings x.id = 0 := by
  have hanswered : ((start sweeping).run history).Answered := (answered_start sweeping).run history
  refine ⟨?_, ?_, ?_⟩
  · intro id hid
    obtain ⟨x, hx, rfl⟩ := List.mem_map.mp hid
    exact hanswered x hx
  · intro hguards
    have hcount := hanswered.count_drain hguards
    refine ⟨hcount, ?_⟩
    rw [run_append, run_sweeps]
    exact hcount
  · intro x hx hguard hheld hrelease hderegister
    have hlive := mem_live_of_held sweeping history x hx hguard hheld hrelease hderegister
    have hnumbered := ((sound_start sweeping).run history).numbered
    refine ⟨hlive, List.count_eq_zero.mpr fun hforced => ?_⟩
    exact hnumbered.forced_gone x.id hforced (List.mem_map_of_mem hlive)

/-- A shared state keeps the second connection registered through a reaping. -/
example :
    ((start true).run [.register none ⟨1, .succeeds⟩, .register (some 1) ⟨2, .succeeds⟩,
      .dropHandle 1, .dropGuard 1, .reap, .sweep]).registrations.ids = [2] := by decide

end DbRoute.Tracking
