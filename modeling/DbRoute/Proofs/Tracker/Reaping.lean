import DbRoute.Proofs.Tracker.Accounting
import Mathlib.Data.List.Perm.Basic

/-!
# What a reaping does

A reaping first notes all registrations whose state nobody holds, and then
releases them one after the other. In which order it comes upon them is not
told. It is of no account: they are released because of who holds their states,
and to release one changes nothing in that, nor does a socket that fails keep
the others from being closed.
-/

namespace DbRoute.Tracking

variable {t : Tracking} {order : List Registration} {x : Registration}

/-- The live registrations whose state nobody holds any more. -/
def dead (t : Tracking) : List Registration :=
  t.registrations.live.filter fun x => t.strongCount x.state == 0

/-- A reaping that comes upon the live registrations in the given order. -/
def reapIn (t : Tracking) (order : List Registration) : Nat × Tracking :=
  let ids := (order.filter fun x => t.strongCount x.state == 0).map (·.id)
  (ids.length, { t with registrations := t.registrations.releaseAll ids })

theorem reap_eq_reapIn (t : Tracking) : t.reap = t.reapIn t.registrations.live := rfl

theorem dead_perm (h : order.Perm t.registrations.live) :
    (order.filter fun x => t.strongCount x.state == 0).Perm t.dead :=
  h.filter _

theorem mem_dead_iff (hx : x ∈ t.registrations.live) : x ∈ t.dead ↔ t.strongCount x.state = 0 := by
  rw [dead, List.mem_filter, beq_iff_eq]
  exact and_iff_right hx

/-- The number of a live registration is that of a dead one only if it is dead itself. -/
theorem id_mem_dead_iff (h : t.registrations.Numbered) (hx : x ∈ t.registrations.live) :
    x.id ∈ t.dead.map (·.id) ↔ t.strongCount x.state = 0 := by
  rw [← mem_dead_iff hx]
  constructor
  · intro hid
    obtain ⟨y, hy, hyx⟩ := List.mem_map.mp hid
    rwa [← List.inj_on_of_nodup_map h.live_nodup (List.mem_of_mem_filter hy) hx hyx]
  · exact List.mem_map_of_mem

/-- Live registrations are found under their numbers. -/
theorem filterMap_find?_ids (h : t.registrations.Numbered) {found : List Registration}
    (hlive : ∀ x ∈ found, x ∈ t.registrations.live) :
    (found.map (·.id)).filterMap t.registrations.find? = found := by
  rw [List.filterMap_map]
  have hfind : ∀ x ∈ found, (t.registrations.find? ∘ (·.id)) x = some x :=
    fun x hx => (h.find?_eq_some_iff (hlive x hx)).mpr rfl
  rw [List.filterMap_congr hfind, List.filterMap_some]

/-- A reaping takes out exactly the dead registrations and leaves all others as they
are. It closes the socket of each dead one exactly once, and no other socket, it counts
the closes that succeed, and it tells how many registrations it has taken out. -/
structure Reaps (t : Tracking) (count : Nat) (after : Tracking) : Prop where
  live : after.registrations.live =
    t.registrations.live.filter fun x => 0 < t.strongCount x.state
  forced : ∃ closed, closed.Perm t.dead ∧
    after.registrations.forced = t.registrations.forced ++ closed
  forcings : ∀ id, after.forcings id =
    t.forcings id + if id ∈ t.dead.map (·.id) then 1 else 0
  released : after.registrations.released =
    t.registrations.released + t.dead.countP (!·.fails)
  count_eq : count = t.dead.length
  removed : count + after.registrations.count = t.registrations.count
  frame : after = { t with
    registrations := { after.registrations with nextId := t.registrations.nextId } }

theorem registrations_reapIn (h : t.registrations.Numbered)
    (horder : order.Perm t.registrations.live) :
    (t.reapIn order).2.registrations =
      { t.registrations with
        live := t.registrations.live.filter fun x => 0 < t.strongCount x.state
        forced := t.registrations.forced ++
          order.filter fun x => t.strongCount x.state == 0
        released := t.registrations.released + t.dead.countP (!·.fails) } := by
  have hperm := dead_perm horder
  have hids := hperm.map (·.id)
  have hnodup : ((order.filter fun x => t.strongCount x.state == 0).map (·.id)).Nodup :=
    hids.nodup_iff.mpr (h.live_nodup.sublist (List.filter_sublist.map _))
  have hfound : ∀ x ∈ order.filter fun x => t.strongCount x.state == 0,
      x ∈ t.registrations.live :=
    fun x hx => horder.mem_iff.mp (List.mem_of_mem_filter hx)
  have hlive : (t.registrations.live.filter fun x =>
        x.id ∉ (order.filter fun x => t.strongCount x.state == 0).map (·.id)) =
      t.registrations.live.filter fun x => 0 < t.strongCount x.state := by
    refine List.filter_congr fun x hx => ?_
    rw [decide_eq_decide, hids.mem_iff, id_mem_dead_iff h hx]
    exact Nat.pos_iff_ne_zero.symm
  show t.registrations.releaseAll _ = _
  rw [Registrations.releaseAll_eq hnodup, filterMap_find?_ids h hfound, hlive,
    hperm.countP_eq]

theorem reaps_reapIn (h : t.registrations.Numbered) (horder : order.Perm t.registrations.live) :
    Reaps t (t.reapIn order).1 (t.reapIn order).2 := by
  have hregistrations := registrations_reapIn h horder
  have hperm := dead_perm horder
  have hcount : (t.reapIn order).1 = t.dead.length := by
    rw [reapIn, List.length_map, hperm.length_eq]
  refine ⟨?_, ⟨_, hperm, ?_⟩, fun id => ?_, ?_, hcount, ?_, ?_⟩
  · rw [hregistrations]
  · rw [hregistrations]
  · -- No number is that of two live registrations, so none is closed twice.
    have hnodup : (t.dead.map (·.id)).Nodup := h.live_nodup.sublist (List.filter_sublist.map _)
    rw [forcings, forcings, hregistrations, Registrations.forcings, Registrations.forcings,
      Registrations.forcedIds, List.map_append, List.count_append, (hperm.map (·.id)).count_eq,
      hnodup.count]
    rfl
  · rw [hregistrations]
  · have hsplit := List.length_eq_countP_add_countP (fun x => t.strongCount x.state == 0)
      (l := t.registrations.live)
    rw [hcount, hregistrations, Registrations.count, Registrations.count, dead,
      ← List.countP_eq_length_filter, ← List.countP_eq_length_filter, hsplit]
    congr 1
    refine List.countP_congr fun x _ => ?_
    simp [Nat.pos_iff_ne_zero]
  · rw [hregistrations]
    exact congrArg (fun r => { t with registrations := r }) hregistrations

/-- What is left by a reaping is held by somebody, and so another one finds nothing. -/
theorem reapIn_reapIn (h : t.registrations.Numbered) (horder : order.Perm t.registrations.live)
    {again : List Registration} (hagain : again.Perm (t.reapIn order).2.registrations.live) :
    (t.reapIn order).2.reapIn again = (0, (t.reapIn order).2) := by
  have hnone : (again.filter fun x => (t.reapIn order).2.strongCount x.state == 0) = [] := by
    refine List.filter_eq_nil_iff.mpr fun x hx => ?_
    have hlive := hagain.mem_iff.mp hx
    rw [registrations_reapIn h horder, List.mem_filter] at hlive
    have hheld : 0 < t.strongCount x.state := of_decide_eq_true hlive.2
    have hsame : (t.reapIn order).2.strongCount x.state = t.strongCount x.state := rfl
    rw [hsame, beq_iff_eq]
    omega
  rw [reapIn, hnone]
  rfl

/-- After any history, whatever the sockets do, and in whatever order a reaping comes
upon the registrations: it takes out exactly those whose state nobody holds, closes the
socket of each of them once and no other, counts the closes that succeed, and tells how
many it took out; and a second reaping right behind it, in whatever order, takes out none
and changes nothing. -/
theorem reap_exact (sweeping : Bool) (history : List Op) (order : List Registration)
    (h : order.Perm ((start sweeping).run history).registrations.live) :
    Reaps ((start sweeping).run history) (((start sweeping).run history).reapIn order).1
      (((start sweeping).run history).reapIn order).2 ∧
    (∀ again : List Registration,
      again.Perm (((start sweeping).run history).reapIn order).2.registrations.live →
      (((start sweeping).run history).reapIn order).2.reapIn again =
        (0, (((start sweeping).run history).reapIn order).2)) ∧
    ((start sweeping).run history).reap = ((start sweeping).run history).reapIn
      ((start sweeping).run history).registrations.live := by
  have hnumbered := ((sound_start sweeping).run history).numbered
  exact ⟨reaps_reapIn hnumbered h, fun _ hagain => reapIn_reapIn hnumbered h hagain,
    reap_eq_reapIn _⟩

/-- Of four connections, the first two share a state; it and that of the last are given up. -/
def givenUp : List Op :=
  [.register none ⟨1, .fails "reset"⟩, .register (some 1) ⟨2, .panics⟩,
    .register none ⟨3, .succeeds⟩, .register none ⟨4, .succeeds⟩,
    .dropHandle 1, .dropHandle 2, .dropHandle 4]

/-- A reaping of these from the last to the first. -/
def reapedBackwards : Nat × Tracking :=
  ((start true).run givenUp).reapIn ((start true).run givenUp).registrations.live.reverse

/-- Two of the three sockets fail, and what is not given up stays. -/
theorem reap_exact_backwards :
    ((start true).run givenUp).registrations.live.reverse.Perm
      ((start true).run givenUp).registrations.live ∧
    reapedBackwards.1 = 3 ∧ reapedBackwards.2.registrations.ids = [3] ∧
    reapedBackwards.2.registrations.released = 1 ∧
    (∀ id ∈ [1, 2, 4], reapedBackwards.2.forcings id = 1) ∧
    reapedBackwards.2.reap = (0, reapedBackwards.2) := by
  have hperm := List.reverse_perm ((start true).run givenUp).registrations.live
  obtain ⟨hreaps, hagain, _⟩ := reap_exact true givenUp _ hperm
  refine ⟨hperm, hreaps.count_eq, ?_, hreaps.released, ?_, hagain _ (List.Perm.refl _)⟩
  · exact congrArg (List.map (·.id)) hreaps.live
  · intro id hid
    refine (hreaps.forcings id).trans ?_
    revert id
    decide

end DbRoute.Tracking
