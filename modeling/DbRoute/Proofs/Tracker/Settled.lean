import DbRoute.Proofs.Tracker.Retention
import Mathlib.Data.Set.Insert

/-!
# A tracker at rest

Between the requests of its users a tracker has nothing pending: every notice
has been taken. What it holds can then be told exactly, and told again after a
connection has been registered, closed or dropped.
-/

namespace DbRoute

namespace Tracking

variable {t : Tracking} {count : Nat} {tracked : Set Registration}
  {abandoned : List Registration} {x : Registration}

/-- With nothing pending, exactly these are registered, all of them guarded,
and exactly those were closed by force. -/
structure Settled (t : Tracking) (count : Nat) (tracked : Set Registration)
    (abandoned : List Registration) : Prop where
  sound : t.Sound
  nextId : t.registrations.nextId = count + 1
  notices : t.notices = []
  live : ∀ x, x ∈ t.registrations.live ↔ x ∈ tracked
  guards : ∀ x ∈ tracked, x.id ∈ t.guards
  forced : t.registrations.forced = abandoned

theorem settled_start (sweeping : Bool) : (start sweeping).Settled 0 ∅ [] where
  sound := sound_start sweeping
  nextId := rfl
  notices := rfl
  live := by simp [start]
  guards := by simp
  forced := rfl

/-- Numbers tell registrations apart. -/
theorem Settled.eq_of_id_eq (h : t.Settled count tracked abandoned) {y : Registration}
    (hx : x ∈ tracked) (hy : y ∈ tracked) (hid : x.id = y.id) : x = y :=
  List.inj_on_of_nodup_map h.sound.numbered.live_nodup ((h.live x).mpr hx) ((h.live y).mpr hy) hid

/-- To take a number out is to take its registration out. -/
theorem Settled.ne_id_iff (h : t.Settled count tracked abandoned) (hx : x ∈ tracked)
    (y : Registration) : y ∈ t.registrations.live ∧ y.id ≠ x.id ↔ y ∈ tracked \ {x} := by
  rw [h.live]
  constructor
  · rintro ⟨hy, hne⟩
    exact ⟨hy, fun e => hne (congrArg Registration.id e)⟩
  · rintro ⟨hy, hne⟩
    exact ⟨hy, fun hid => hne (h.eq_of_id_eq hy hx hid)⟩

theorem Settled.register (h : t.Settled count tracked abandoned) (socket : Socket) :
    (t.register none socket).2.Settled (count + 1)
      (insert ⟨count + 1, count + 1, socket⟩ tracked) abandoned where
  sound := h.sound.step (.register none socket)
  nextId := congrArg (· + 1) h.nextId
  notices := h.notices
  live := by
    intro x
    simp [Tracking.register, Registrations.register, h.live, h.nextId, or_comm]
  guards := by
    intro x hx
    apply List.mem_append.mpr
    rcases hx with rfl | hx
    · exact Or.inr (by simp [h.nextId])
    · exact Or.inl (h.guards x hx)
  forced := h.forced

theorem Settled.close (h : t.Settled count tracked abandoned) (hx : x ∈ tracked) :
    (t.close x.id).2.Settled count (tracked \ {x}) abandoned := by
  have hguard := h.guards x hx
  have hsound : (t.close x.id).2.Sound := h.sound.step (.close x.id)
  rw [Tracking.close, if_pos hguard] at hsound ⊢
  refine ⟨hsound, h.nextId, h.notices, fun y => ?_, fun y hy => ?_, h.forced⟩
  · rw [← h.ne_id_iff hx]
    exact Registrations.mem_live_forget
  · obtain ⟨_, hne⟩ := (h.ne_id_iff hx y).mpr hy
    exact List.mem_filter.mpr ⟨h.guards y hy.1, by simpa using hne⟩

theorem Settled.dropHandle (h : t.Settled count tracked abandoned) (owner : Nat) :
    (t.dropHandle owner).2.Settled count tracked abandoned :=
  ⟨h.sound.step (.dropHandle owner), h.nextId, h.notices, h.live, h.guards, h.forced⟩

theorem Settled.drain_eq (h : t.Settled count tracked abandoned) : t.drain = t := by
  rw [← run_sweeps, h.notices]
  rfl

theorem Settled.drain (h : t.Settled count tracked abandoned) :
    t.drain.Settled count tracked abandoned := by
  rwa [h.drain_eq]

/-- Once the queue is drained, a dropped guard has released its registration,
whether the sweep does it or the guard itself. -/
theorem Settled.drain_dropGuard (h : t.Settled count tracked abandoned) (hx : x ∈ tracked) :
    (t.dropGuard x.id).2.drain.registrations = (t.registrations.release x.id).2 ∧
      (t.dropGuard x.id).2.drain.guards = t.guards.filter (· != x.id) := by
  have hguard := h.guards x hx
  cases hs : t.sweeping <;>
    simp [Tracking.dropGuard, Tracking.drain, hguard, hs, h.notices, cleanUp,
      Registrations.releaseAll]

theorem Settled.dropGuard (h : t.Settled count tracked abandoned) (hx : x ∈ tracked) :
    (t.dropGuard x.id).2.drain.Settled count (tracked \ {x}) (abandoned ++ [x]) := by
  obtain ⟨hregistrations, hguards⟩ := h.drain_dropGuard hx
  have hsound : (t.dropGuard x.id).2.drain.Sound := by
    rw [← run_sweeps]
    exact (h.sound.step (.dropGuard x.id)).run _
  have hforced : (t.registrations.release x.id).2.forced = abandoned ++ [x] := by
    rcases t.registrations.release_cases x.id with ⟨hgone, _⟩ | ⟨y, hy, hid, _, hforced, _⟩
    · exact absurd (List.mem_map_of_mem ((h.live x).mpr hx)) hgone
    · rw [hforced, h.forced, h.eq_of_id_eq ((h.live y).mp hy) hx hid]
  refine ⟨hsound, ?_, rfl, fun y => ?_, fun y hy => ?_, ?_⟩
  · rw [hregistrations, Registrations.nextId_release, h.nextId]
  · rw [hregistrations, Registrations.mem_live_release, h.ne_id_iff hx]
  · obtain ⟨_, hne⟩ := (h.ne_id_iff hx y).mpr hy
    rw [hguards]
    exact List.mem_filter.mpr ⟨h.guards y hy.1, by simpa using hne⟩
  · rw [hregistrations, hforced]

end Tracking

end DbRoute
