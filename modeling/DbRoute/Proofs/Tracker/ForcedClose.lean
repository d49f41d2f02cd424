import DbRoute.Proofs.Tracker.Registrations
import DbRoute.Tracker.Tracking

/-!
# When a socket is closed by force

A socket is closed by force at most once, and not at all once its connection
has been deregistered or closed. As long as the guard of a connection and its
state are both held, only an explicit release closes its socket.

The invariant ties the queue to the guards: a notice is posted when a guard is
dropped, and a number once given out is not given to another guard, so no
notice names a guard that is still held.
-/

namespace DbRoute.Tracking

variable {t : Tracking} {op : Op} {id : Nat}

/-- A tracker that nobody has registered with, with a sweep or without one. -/
def start (sweeping : Bool) : Tracking := { sweeping }

def forcings (t : Tracking) (id : Nat) : Nat := t.registrations.forcings id

/-- The registrations that an operation releases, in order. -/
def releasedBy (t : Tracking) : Op → List Nat
  | .dropGuard id => if id ∈ t.guards ∧ t.sweeping = false then [id] else []
  | .sweep => t.notices.take 1
  | .release id => [id]
  | .reap => t.unreachable
  | _ => []

/-- The state that a registration observes is still held by somebody. -/
def Observed (t : Tracking) (id : Nat) : Prop :=
  ∃ x ∈ t.registrations.live, x.id = id ∧ 0 < t.strongCount x.state

/-- The operation found the registration and took it out with its socket open. -/
def Forgets (op : Op) (answer : Answer) (id : Nat) : Prop :=
  (op = .deregister id ∧ answer = .flag true) ∨
  (op = .close id ∧ answer = .closed (some true))

/-! ## What one step does -/

/-- What an operation makes of the register. -/
def registrationsAfter (t : Tracking) : Op → Registrations
  | .register share socket =>
      (t.registrations.register ((share.bind t.stateOf?).getD t.registrations.nextId) socket).2
  | .close id => if id ∈ t.guards then t.registrations.forget id else t.registrations
  | .deregister id => t.registrations.forget id
  | op => t.registrations.releaseAll (t.releasedBy op)

theorem registrations_step (t : Tracking) (op : Op) :
    (t.step op).registrations = t.registrationsAfter op := by
  cases op with
  | dropGuard id =>
      by_cases hid : id ∈ t.guards
      · cases hs : t.sweeping <;>
          simp [step, perform, dropGuard, registrationsAfter, releasedBy, hid, hs, cleanUp,
            Registrations.releaseAll]
      · simp [step, perform, dropGuard, registrationsAfter, releasedBy, hid,
          Registrations.releaseAll]
  | sweep =>
      cases hn : t.notices <;>
        simp [step, perform, sweep, registrationsAfter, releasedBy, hn, cleanUp,
          Registrations.releaseAll]
  | close id =>
      by_cases hid : id ∈ t.guards <;>
        simp [step, perform, close, registrationsAfter, hid, Registrations.deregister]
  | register _ _ | dropHandle _ | release _ | deregister _ | reap => rfl

/-- A step registers, forgets, or releases what it is to release. -/
theorem step_registrations (t : Tracking) (op : Op) :
    (∃ state socket,
      (t.step op).registrations = (t.registrations.register state socket).2) ∨
    (∃ id, (t.step op).registrations = t.registrations.forget id) ∨
    (t.step op).registrations = t.registrations.releaseAll (t.releasedBy op) := by
  rw [registrations_step]
  cases op with
  | register share socket => exact Or.inl ⟨_, _, rfl⟩
  | deregister id => exact Or.inr (Or.inl ⟨id, rfl⟩)
  | close id =>
      by_cases hid : id ∈ t.guards
      · exact Or.inr (Or.inl ⟨id, if_pos hid⟩)
      · exact Or.inr (Or.inr (if_neg hid))
  | dropHandle _ | dropGuard _ | sweep | release _ | reap => exact Or.inr (Or.inr rfl)

theorem nextId_le_step (t : Tracking) (op : Op) :
    t.registrations.nextId ≤ (t.step op).registrations.nextId := by
  rcases t.step_registrations op with ⟨state, socket, h⟩ | ⟨id, h⟩ | h
  · rw [h, Registrations.nextId_register]
    exact Nat.le_succ _
  · exact Nat.le_of_eq (by rw [h, Registrations.nextId_forget])
  · exact Nat.le_of_eq (by rw [h, Registrations.nextId_releaseAll])

/-- A guard is new, under the number given out by the step, or was there before. -/
theorem mem_guards_step (h : id ∈ (t.step op).guards) :
    id ∈ t.guards ∨
      (id = t.registrations.nextId ∧ id < (t.step op).registrations.nextId) := by
  cases op with
  | register share socket =>
      rcases List.mem_append.mp h with h | h
      · exact Or.inl h
      · obtain rfl := List.mem_singleton.mp h
        exact Or.inr ⟨rfl, Nat.lt_succ_self _⟩
  | dropGuard i =>
      by_cases hi : i ∈ t.guards
      · cases hs : t.sweeping <;>
          simp only [step, perform, dropGuard, hi, hs, cleanUp, if_true, if_false,
            Bool.false_eq_true, List.mem_filter] at h <;>
          exact Or.inl h.1
      · simp only [step, perform, dropGuard, hi, if_false] at h
        exact Or.inl h
  | sweep =>
      cases hn : t.notices <;> simp only [step, perform, sweep, hn, cleanUp] at h <;>
        exact Or.inl h
  | close i =>
      by_cases hi : i ∈ t.guards
      · simp only [step, perform, close, hi, if_true, List.mem_filter] at h
        exact Or.inl h.1
      · simp only [step, perform, close, hi, if_false] at h
        exact Or.inl h
  | dropHandle _ => exact Or.inl h
  | release _ => exact Or.inl h
  | deregister _ => exact Or.inl h
  | reap => exact Or.inl h

theorem not_mem_guards_dropGuard (t : Tracking) (id : Nat) :
    id ∉ (t.step (.dropGuard id)).guards := by
  by_cases hid : id ∈ t.guards
  · cases hs : t.sweeping <;> simp [step, perform, dropGuard, hid, hs, cleanUp]
  · simp [step, perform, dropGuard, hid]

theorem not_mem_guards_close (t : Tracking) (id : Nat) :
    id ∉ (t.step (.close id)).guards := by
  by_cases hid : id ∈ t.guards <;> simp [step, perform, close, hid]

/-- A notice was there before, or the step dropped its guard. -/
theorem mem_notices_step (h : id ∈ (t.step op).notices) :
    id ∈ t.notices ∨ (id ∈ t.guards ∧ op = .dropGuard id) := by
  cases op with
  | dropGuard i =>
      by_cases hi : i ∈ t.guards
      · cases hs : t.sweeping
        · simp only [step, perform, dropGuard, hi, hs, cleanUp, if_true, if_false,
            Bool.false_eq_true] at h
          exact Or.inl h
        · simp only [step, perform, dropGuard, hi, hs, if_true, List.mem_append,
            List.mem_singleton] at h
          rcases h with h | rfl
          · exact Or.inl h
          · exact Or.inr ⟨hi, rfl⟩
      · simp only [step, perform, dropGuard, hi, if_false] at h
        exact Or.inl h
  | sweep =>
      cases hn : t.notices with
      | nil =>
          simp only [step, perform, sweep, hn] at h
          simp at h
      | cons i rest =>
          simp only [step, perform, sweep, hn, cleanUp] at h
          exact Or.inl (List.mem_cons_of_mem _ h)
  | close i =>
      by_cases hi : i ∈ t.guards <;> simp only [step, perform, close, hi, if_true, if_false] at h <;>
        exact Or.inl h
  | register _ _ => exact Or.inl h
  | dropHandle _ => exact Or.inl h
  | release _ => exact Or.inl h
  | deregister _ => exact Or.inl h
  | reap => exact Or.inl h

/-- A successful deregistration or close forgets a live registration. -/
theorem Forgets.step_registrations (h : Forgets op (t.perform op).1 id) :
    id ∈ t.registrations.ids ∧ (t.step op).registrations = t.registrations.forget id := by
  rcases h with ⟨rfl, ha⟩ | ⟨rfl, ha⟩
  · have hhas : t.registrations.has id = true := Answer.flag.inj ha
    exact ⟨Registrations.has_iff.mp hhas, rfl⟩
  · by_cases hid : id ∈ t.guards
    · simp only [perform, close, hid, if_true] at ha
      have hhas : t.registrations.has id = true := Option.some.inj (Answer.closed.inj ha)
      refine ⟨Registrations.has_iff.mp hhas, ?_⟩
      simp [step, perform, close, hid, Registrations.deregister]
    · simp [perform, close, hid] at ha

/-! ## The invariant -/

/-- Every number in use has been given out, and no notice names a held guard. -/
structure Sound (t : Tracking) : Prop where
  numbered : t.registrations.Numbered
  guards_lt : ∀ id ∈ t.guards, id < t.registrations.nextId
  notices_lt : ∀ id ∈ t.notices, id < t.registrations.nextId
  notices_unguarded : ∀ id ∈ t.notices, id ∉ t.guards

theorem sound_start (sweeping : Bool) : (start sweeping).Sound where
  numbered := Registrations.numbered_empty
  guards_lt := by simp [start]
  notices_lt := by simp [start]
  notices_unguarded := by simp [start]

theorem Sound.step (h : t.Sound) (op : Op) : (t.step op).Sound where
  numbered := by
    rcases t.step_registrations op with ⟨state, socket, he⟩ | ⟨id, he⟩ | he
    · rw [he]
      exact h.numbered.register state socket
    · rw [he]
      exact h.numbered.forget id
    · rw [he]
      exact h.numbered.releaseAll _
  guards_lt := by
    intro id hid
    rcases mem_guards_step hid with hid | hid
    · exact Nat.lt_of_lt_of_le (h.guards_lt id hid) (t.nextId_le_step op)
    · exact hid.2
  notices_lt := by
    intro id hid
    have hlt : id < t.registrations.nextId := by
      rcases mem_notices_step hid with hid | hid
      · exact h.notices_lt id hid
      · exact h.guards_lt id hid.1
    exact Nat.lt_of_lt_of_le hlt (t.nextId_le_step op)
  notices_unguarded := by
    intro id hid hguard
    rcases mem_notices_step hid with hid | ⟨_, rfl⟩
    · -- A guard made by this step has a new number, and the notice an old one.
      rcases mem_guards_step hguard with hg | hg
      · exact h.notices_unguarded id hid hg
      · exact Nat.ne_of_lt (h.notices_lt id hid) hg.1
    · exact not_mem_guards_dropGuard t id hguard

theorem Sound.run (h : t.Sound) (history : List Op) : (t.run history).Sound := by
  induction history generalizing t with
  | nil => exact h
  | cons op history ih => exact ih (h.step op)

theorem dismissed_run (h : t.registrations.Dismissed id) (history : List Op) :
    (t.run history).registrations.Dismissed id := by
  induction history generalizing t with
  | nil => exact h
  | cons op history ih =>
      apply ih
      rcases t.step_registrations op with ⟨state, socket, he⟩ | ⟨i, he⟩ | he
      · rw [he]
        exact h.register state socket
      · rw [he]
        exact h.forget i
      · rw [he]
        exact h.releaseAll _

/-! ## Who closes a socket -/

/-- A step closes a socket by force only by a release. -/
theorem mem_releasedBy_of_forcings_lt (h : t.forcings id < (t.step op).forcings id) :
    id ∈ t.releasedBy op := by
  rw [forcings, forcings] at h
  rcases t.step_registrations op with ⟨state, socket, he⟩ | ⟨i, he⟩ | he
  · rw [he] at h
    exact absurd h (Nat.lt_irrefl _)
  · rw [he] at h
    exact absurd h (Nat.lt_irrefl _)
  · rw [he] at h
    exact (Registrations.exists_live_of_forcings_lt h).1

/-- No reaping releases what observes a state that is held. -/
theorem Sound.not_mem_unreachable (h : t.Sound) (hobs : t.Observed id) :
    id ∉ t.unreachable := by
  obtain ⟨x, hx, rfl, hpos⟩ := hobs
  intro hm
  obtain ⟨y, hy, hid⟩ := List.mem_map.mp hm
  obtain ⟨hy, hzero⟩ := List.mem_filter.mp hy
  have hxy : y = x := List.inj_on_of_nodup_map h.numbered.live_nodup hy hx hid
  rw [hxy, beq_iff_eq] at hzero
  omega

/-- What is guarded and observed is released only on demand. -/
theorem Sound.eq_release_of_mem_releasedBy (h : t.Sound) (hm : id ∈ t.releasedBy op)
    (hguard : id ∈ (t.step op).guards) (hobs : t.Observed id) : op = .release id := by
  cases op with
  | release i => rw [List.mem_singleton.mp hm]
  | dropGuard i =>
      rw [releasedBy] at hm
      split at hm
      · obtain rfl := List.mem_singleton.mp hm
        exact absurd hguard (not_mem_guards_dropGuard t id)
      · exact absurd hm List.not_mem_nil
  | sweep =>
      -- A notice says that the guard is gone, and no later guard has its number.
      have hnotice : id ∈ t.notices := List.mem_of_mem_take hm
      rcases mem_guards_step hguard with hg | hg
      · exact absurd hg (h.notices_unguarded id hnotice)
      · exact absurd hg.1 (Nat.ne_of_lt (h.notices_lt id hnotice))
  | reap => exact absurd hm (h.not_mem_unreachable hobs)
  | register _ _ | dropHandle _ | close _ | deregister _ => exact absurd hm List.not_mem_nil

theorem Sound.eq_release_of_forcings_lt (h : t.Sound)
    (hlt : t.forcings id < (t.step op).forcings id)
    (hguard : id ∈ (t.step op).guards) (hobs : t.Observed id) : op = .release id :=
  h.eq_release_of_mem_releasedBy (mem_releasedBy_of_forcings_lt hlt) hguard hobs

/-- Over any history, whatever the sockets do when they are closed by force: a
socket is closed by force at most once, and never if its registration has been
deregistered or its guard closed with success; and while its guard and the
state it observes are held, only an explicit release closes it by force. -/
theorem forced_close_discipline (sweeping : Bool) (history : List Op) :
    (∀ id, ((start sweeping).run history).forcings id ≤ 1) ∧
    ∀ before op after, history = before ++ op :: after → ∀ id,
      (Forgets op (((start sweeping).run before).perform op).1 id →
        ((start sweeping).run history).forcings id = 0) ∧
      (((start sweeping).run before).forcings id <
          ((start sweeping).run (before ++ [op])).forcings id →
        id ∈ ((start sweeping).run (before ++ [op])).guards →
        ((start sweeping).run before).Observed id → op = .release id) := by
  have hsound : ∀ past, ((start sweeping).run past).Sound :=
    fun past => (sound_start sweeping).run past
  refine ⟨fun id => (hsound history).numbered.forcings_le_one id, ?_⟩
  rintro before op after rfl id
  constructor
  · intro hforgets
    obtain ⟨hlive, hstep⟩ := hforgets.step_registrations
    have hgone : (((start sweeping).run before).step op).registrations.Dismissed id := by
      rw [hstep]
      exact (hsound before).numbered.dismissed_forget hlive
    rw [run_append]
    exact (dismissed_run hgone after).forcings_eq_zero
  · rw [run_append]
    exact (hsound before).eq_release_of_forcings_lt

/-- The release comes before the notice is taken, and leaves it nothing to close. -/
example :
    ((start true).run [.register none ⟨1, .fails "reset"⟩, .dropGuard 1, .release 1,
      .sweep]).forcings 1 = 1 := by decide

end DbRoute.Tracking
