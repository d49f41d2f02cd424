import DbRoute.Proofs.Tracker.Accounting
import Mathlib.Data.List.Perm.Basic

/-!
# Removals in any order

A registration ends by a release, a deregistration, or the end of its guard,
which is closed or dropped. What such a removal does and answers depends on no
other registration, so that removals of different registrations may change
places: each of them answers the same, and the books are the same in the end.

This is also why it does not matter when the sweep takes its notices. A guard
that is dropped has its registration released at once or later, and whatever
happens in between to other registrations comes to the same.
-/

namespace DbRoute

namespace Registrations

variable {r s : Registrations} {id : Nat}

/-- The two ways in which a registration ends: its socket is closed or left open. -/
inductive Ending where
  | release (id : Nat)
  | forget (id : Nat)

/-- The number of the registration that ends. -/
def Ending.target : Ending → Nat
  | release id => id
  | forget id => id

def ended (r : Registrations) : Ending → Registrations
  | .release id => (r.release id).2
  | .forget id => r.forget id

def endAll (r : Registrations) (endings : List Ending) : Registrations :=
  endings.foldl ended r

/-- The registration whose socket is closed, if there is one. -/
def closing (r : Registrations) : Ending → List Registration
  | .release id => (r.find? id).toList
  | .forget _ => []

variable {e f : Ending} {es fs : List Ending}

theorem endAll_cons (r : Registrations) (e : Ending) (es : List Ending) :
    r.endAll (e :: es) = (r.ended e).endAll es := rfl

theorem endAll_append (r : Registrations) (es fs : List Ending) :
    r.endAll (es ++ fs) = (r.endAll es).endAll fs :=
  List.foldl_append

theorem endAll_releases (r : Registrations) (ids : List Nat) :
    r.endAll (ids.map .release) = r.releaseAll ids := by
  rw [endAll, List.foldl_map]
  rfl

theorem ended_eq (r : Registrations) (e : Ending) :
    r.ended e =
      { r.forget e.target with
        forced := r.forced ++ r.closing e
        released := r.released + (r.closing e).countP (!·.fails) } := by
  cases e with
  | release id => exact r.release_snd id
  | forget id =>
      rw [closing, List.append_nil, List.countP_nil, Nat.add_zero]
      rfl

theorem find?_ended_of_ne (h : id ≠ e.target) : (r.ended e).find? id = r.find? id := by
  rw [ended_eq, find?, forget, List.find?_filter, find?]
  refine congrArg (List.find? · r.live) (funext fun x => ?_)
  by_cases hx : x.id = id <;> simp [hx, h]

theorem closing_ended (h : f.target ≠ e.target) : (r.ended e).closing f = r.closing f := by
  cases f with
  | release id => exact congrArg Option.toList (find?_ended_of_ne h)
  | forget id => rfl

/-- The same registrations live, the same number closed with success, and the same
sockets closed, in whatever order. -/
structure SameBooks (r s : Registrations) : Prop where
  nextId : r.nextId = s.nextId
  live : r.live = s.live
  released : r.released = s.released
  forced : r.forced.Perm s.forced

namespace SameBooks

protected theorem refl (r : Registrations) : SameBooks r r := ⟨rfl, rfl, rfl, .refl _⟩

protected theorem trans {u : Registrations} (h : SameBooks r s) (h' : SameBooks s u) :
    SameBooks r u :=
  ⟨h.nextId.trans h'.nextId, h.live.trans h'.live, h.released.trans h'.released,
    h.forced.trans h'.forced⟩

theorem closes_eq (h : SameBooks r s) (socket : Nat) : r.closes socket = s.closes socket :=
  h.forced.countP_eq _

theorem closing_eq (h : SameBooks r s) (e : Ending) : r.closing e = s.closing e := by
  cases e with
  | release id => rw [closing, closing, find?, find?, h.live]
  | forget id => rfl

theorem ended (h : SameBooks r s) (e : Ending) : SameBooks (r.ended e) (s.ended e) := by
  rw [ended_eq, ended_eq, h.closing_eq]
  refine ⟨h.nextId, ?_, ?_, h.forced.append_right _⟩
  · exact congrArg (List.filter (·.id != e.target)) h.live
  · exact congrArg (· + _) h.released

theorem endAll (h : SameBooks r s) (es : List Ending) : SameBooks (r.endAll es) (s.endAll es) := by
  induction es generalizing r s with
  | nil => exact h
  | cons e es ih => exact ih (h.ended e)

end SameBooks

/-- Endings of different registrations may change places. -/
theorem ended_comm (h : e.target ≠ f.target) :
    SameBooks ((r.ended e).ended f) ((r.ended f).ended e) := by
  rw [ended_eq (r.ended e), ended_eq (r.ended f), closing_ended h.symm, closing_ended h,
    ended_eq r e, ended_eq r f]
  refine ⟨rfl, ?_, ?_, ?_⟩
  · simp only [forget, List.filter_filter, Bool.and_comm]
  · exact Nat.add_right_comm _ _ _
  · show (r.forced ++ r.closing e ++ r.closing f).Perm (r.forced ++ r.closing f ++ r.closing e)
    rw [List.append_assoc, List.append_assoc]
    exact List.perm_append_comm.append_left _

/-- Each registration ends in one way only. -/
def Unambiguous (es : List Ending) : Prop := ∀ e ∈ es, ∀ f ∈ es, e.target = f.target → e = f

/-- Endings may come in any order. -/
theorem endAll_perm (h : es.Perm fs) (hes : Unambiguous es) :
    SameBooks (r.endAll es) (r.endAll fs) := by
  induction h generalizing r with
  | nil => exact .refl r
  | cons e _ ih =>
      exact ih fun a ha b hb => hes a (List.mem_cons_of_mem _ ha) b (List.mem_cons_of_mem _ hb)
  | swap e f es =>
      by_cases hef : f.target = e.target
      · rw [hes f List.mem_cons_self e (List.mem_cons_of_mem _ List.mem_cons_self) hef]
        exact .refl _
      · exact (ended_comm hef).endAll es
  | trans hperm _ ih ih' =>
      exact (ih hes).trans (ih' fun a ha b hb =>
        hes a (hperm.mem_iff.mpr ha) b (hperm.mem_iff.mpr hb))

end Registrations

namespace Tracking

open Registrations

variable {t : Tracking} {id : Nat}

/-! ## Removals one by one -/

/-- What ends a registration; to abandon a connection is to drop its guard. -/
inductive Removal where
  | release (id : Nat)
  | deregister (id : Nat)
  | close (id : Nat)
  | abandon (id : Nat)
  deriving DecidableEq

namespace Removal

def target : Removal → Nat
  | release id | deregister id | close id | abandon id => id

def op : Removal → Op
  | release id => .release id
  | deregister id => .deregister id
  | close id => .close id
  | abandon id => .dropGuard id

/-- The guards that are given up. -/
def unguarded : Removal → List Nat
  | release _ | deregister _ => []
  | close id | abandon id => [id]

end Removal

variable {x y : Removal} {xs ys : List Removal}

/-- Drops a guard, its registration being released at once, by whomever. -/
def abandon (t : Tracking) (id : Nat) : Bool × Tracking :=
  if id ∈ t.guards then (true, { t with guards := t.guards.filter (· != id) }.cleanUp id)
  else (false, t)

def remove (t : Tracking) : Removal → Answer × Tracking
  | .release id => t.perform (.release id)
  | .deregister id => t.perform (.deregister id)
  | .close id => t.perform (.close id)
  | .abandon id =>
      let (known, t) := t.abandon id
      (.flag known, t)

def removeAll (t : Tracking) (xs : List Removal) : Tracking :=
  xs.foldl (fun t x => (t.remove x).2) t

/-- The removals with their answers. -/
def removals (t : Tracking) : List Removal → List (Removal × Answer)
  | [] => []
  | x :: xs => (x, (t.remove x).1) :: (t.remove x).2.removals xs

/-- What a removal does to the register. -/
def endings (t : Tracking) : Removal → List Ending
  | .release id => [.release id]
  | .deregister id => [.forget id]
  | .close id => if id ∈ t.guards then [.forget id] else []
  | .abandon id => if id ∈ t.guards then [.release id] else []

/-- The tracker with some registrations ended, some guards given up, and these notices. -/
def after (t : Tracking) (es : List Ending) (unguarded notices : List Nat) : Tracking :=
  { t with
    registrations := t.registrations.endAll es
    guards := t.guards.filter (· ∉ unguarded)
    notices }

theorem after_nil (t : Tracking) (es : List Ending) (notices : List Nat) :
    t.after es [] notices = { t with registrations := t.registrations.endAll es, notices } := by
  simp [after]

theorem after_singleton (t : Tracking) (es : List Ending) (id : Nat) (notices : List Nat) :
    t.after es [id] notices = { t with
      registrations := t.registrations.endAll es
      guards := t.guards.filter (· != id)
      notices } := by
  have hguards : t.guards.filter (· ∉ [id]) = t.guards.filter (· != id) := by
    refine List.filter_congr fun i _ => ?_
    rw [Bool.eq_iff_iff]
    simp
  rw [after, hguards]

theorem after_of_not_mem (h : id ∉ t.guards) : t.after [] [id] t.notices = t := by
  have hguards : t.guards.filter (· ∉ [id]) = t.guards := by
    refine List.filter_eq_self.mpr fun i hi => ?_
    have hne : i ≠ id := fun e => h (e ▸ hi)
    simpa using hne
  rw [after, hguards]
  rfl

theorem after_after (t : Tracking) (es fs : List Ending)
    (unguarded more before notices : List Nat) :
    (t.after es unguarded before).after fs more notices =
      t.after (es ++ fs) (unguarded ++ more) notices := by
  simp only [after, endAll_append, List.filter_filter, List.mem_append, not_or, Bool.decide_and,
    Bool.and_comm]

theorem remove_snd (t : Tracking) (x : Removal) :
    (t.remove x).2 = t.after (t.endings x) x.unguarded t.notices := by
  cases x with
  | release id => exact (after_nil t [.release id] t.notices).symm
  | deregister id => exact (after_nil t [.forget id] t.notices).symm
  | close id =>
      by_cases hid : id ∈ t.guards
      · rw [Removal.unguarded, after_singleton]
        simp [remove, perform, Tracking.close, endings, hid, Registrations.deregister, endAll,
          ended]
      · rw [endings, if_neg hid, Removal.unguarded, after_of_not_mem hid]
        simp [remove, perform, Tracking.close, hid]
  | abandon id =>
      by_cases hid : id ∈ t.guards
      · rw [Removal.unguarded, after_singleton]
        simp [remove, abandon, endings, hid, cleanUp, endAll, ended]
      · rw [endings, if_neg hid, Removal.unguarded, after_of_not_mem hid]
        simp [remove, abandon, hid]

/-- The answer to a removal, by what is found of the registration and of its guard. -/
def Removal.answer (found? : Option Registration) (guarded : Bool) : Removal → Answer
  | .release _ => .released (found?.elim (.ok false) fun found =>
      found.socket.forcedClose.run.map fun _ => true)
  | .deregister _ => .flag found?.isSome
  | .close _ => .closed (if guarded then some found?.isSome else none)
  | .abandon _ => .flag guarded

theorem remove_fst (t : Tracking) (x : Removal) :
    (t.remove x).1 = x.answer (t.registrations.find? x.target) (x.target ∈ t.guards) := by
  cases x with
  | release id =>
      refine congrArg Answer.released ?_
      show (t.registrations.release id).1 = _
      cases h : t.registrations.find? id with
      | none => rw [release_of_find?_eq_none h, Removal.target, h]; rfl
      | some found => rw [release_of_find?_eq_some h, Removal.target, h]; rfl
  | deregister id => rfl
  | close id =>
      by_cases hid : id ∈ t.guards <;>
        simp [remove, perform, Tracking.close, Registrations.deregister, Removal.answer,
          Removal.target, hid, has]
  | abandon id =>
      by_cases hid : id ∈ t.guards <;>
        simp [remove, abandon, Removal.answer, Removal.target, hid]

theorem perform_op_fst (t : Tracking) (x : Removal) : (t.perform x.op).1 = (t.remove x).1 := by
  cases x with
  | abandon id =>
      by_cases hid : id ∈ t.guards <;>
        simp [Removal.op, perform, dropGuard, remove, abandon, hid]
  | release _ | deregister _ | close _ => rfl

/-! ## Removals of different registrations -/

theorem target_of_mem_endings {e : Ending} (h : e ∈ t.endings x) : e.target = x.target := by
  cases x with
  | release id | deregister id =>
      obtain rfl := List.mem_singleton.mp h
      rfl
  | close id | abandon id =>
      rw [endings] at h
      split at h
      · obtain rfl := List.mem_singleton.mp h
        rfl
      · exact absurd h List.not_mem_nil

theorem eq_of_mem_endings {e f : Ending} (he : e ∈ t.endings x) (hf : f ∈ t.endings x) :
    e = f := by
  cases x with
  | release id | deregister id => rw [List.mem_singleton.mp he, List.mem_singleton.mp hf]
  | close id | abandon id =>
      rw [endings] at he hf
      split at he
      · next hid =>
        rw [if_pos hid] at hf
        rw [List.mem_singleton.mp he, List.mem_singleton.mp hf]
      · exact absurd he List.not_mem_nil

theorem eq_target_of_mem_unguarded (h : id ∈ x.unguarded) : id = x.target := by
  cases x with
  | release _ | deregister _ => exact absurd h List.not_mem_nil
  | close _ | abandon _ => exact List.mem_singleton.mp h

theorem find?_endAll_of_ne {r : Registrations} {es : List Ending} (h : ∀ e ∈ es, id ≠ e.target) :
    (r.endAll es).find? id = r.find? id := by
  induction es generalizing r with
  | nil => rfl
  | cons e es ih =>
      obtain ⟨he, hes⟩ := List.forall_mem_cons.mp h
      rw [endAll_cons, ih hes, find?_ended_of_ne he]

theorem mem_guards_after {es : List Ending} {unguarded notices : List Nat} (h : id ∉ unguarded) :
    id ∈ (t.after es unguarded notices).guards ↔ id ∈ t.guards := by
  simp [after, h]

/-- Removals look at nothing but their own guards to see what they are to do. -/
theorem endings_after {es : List Ending} {unguarded notices : List Nat}
    (h : x.target ∉ unguarded) :
    (t.after es unguarded notices).endings x = t.endings x := by
  have hguard : x.target ∈ (t.after es unguarded notices).guards ↔ x.target ∈ t.guards :=
    mem_guards_after h
  cases x with
  | release id | deregister id => rfl
  | close id | abandon id =>
      rw [Removal.target] at hguard
      simp only [endings, hguard]

/-- Nor does the end of other registrations change what a removal answers. -/
theorem remove_fst_after {es : List Ending} {unguarded notices : List Nat}
    (hes : ∀ e ∈ es, x.target ≠ e.target) (h : x.target ∉ unguarded) :
    ((t.after es unguarded notices).remove x).1 = (t.remove x).1 := by
  have hfind : (t.after es unguarded notices).registrations.find? x.target =
      t.registrations.find? x.target := find?_endAll_of_ne hes
  have hguard : x.target ∈ (t.after es unguarded notices).guards ↔ x.target ∈ t.guards :=
    mem_guards_after h
  rw [remove_fst, remove_fst, hfind, decide_eq_decide.mpr hguard]

theorem not_mem_unguarded (h : y.target ≠ x.target) : y.target ∉ x.unguarded :=
  fun hm => h (eq_target_of_mem_unguarded hm)

theorem endings_remove (h : y.target ≠ x.target) : (t.remove x).2.endings y = t.endings y := by
  rw [remove_snd]
  exact endings_after (not_mem_unguarded h)

theorem remove_fst_remove (h : y.target ≠ x.target) :
    ((t.remove x).2.remove y).1 = (t.remove y).1 := by
  rw [remove_snd]
  refine remove_fst_after (fun e he => ?_) (not_mem_unguarded h)
  rw [target_of_mem_endings he]
  exact h

theorem removeAll_cons (t : Tracking) (x : Removal) (xs : List Removal) :
    t.removeAll (x :: xs) = (t.remove x).2.removeAll xs := rfl

/-- Different registrations are removed as if each were the only one. -/
theorem removeAll_eq (h : (xs.map Removal.target).Nodup) :
    t.removeAll xs =
      t.after (xs.flatMap t.endings) (xs.flatMap Removal.unguarded) t.notices := by
  induction xs generalizing t with
  | nil => exact (after_nil t [] t.notices).symm
  | cons x xs ih =>
      obtain ⟨hx, hxs⟩ := List.nodup_cons.mp h
      have hendings : xs.flatMap (t.remove x).2.endings = xs.flatMap t.endings := by
        refine List.flatMap_congr fun y hy => endings_remove fun e => hx ?_
        exact e ▸ List.mem_map_of_mem hy
      rw [removeAll_cons, ih hxs, hendings, remove_snd, after_after, List.flatMap_cons,
        List.flatMap_cons]
      rfl

theorem removals_eq (h : (xs.map Removal.target).Nodup) :
    t.removals xs = xs.map fun x => (x, (t.remove x).1) := by
  induction xs generalizing t with
  | nil => rfl
  | cons x xs ih =>
      obtain ⟨hx, hxs⟩ := List.nodup_cons.mp h
      rw [removals, ih hxs, List.map_cons]
      refine congrArg ((x, (t.remove x).1) :: ·) (List.map_congr_left fun y hy => ?_)
      rw [remove_fst_remove fun e => hx (e ▸ List.mem_map_of_mem hy)]

/-- The trackers differ in no more than the order in which sockets were closed. -/
structure Alike (t u : Tracking) : Prop where
  books : SameBooks t.registrations u.registrations
  rest : u = { t with registrations := u.registrations }

theorem unambiguous_endings (h : (xs.map Removal.target).Nodup) :
    Unambiguous (xs.flatMap t.endings) := by
  intro e he f hf hef
  obtain ⟨x, hx, he⟩ := List.mem_flatMap.mp he
  obtain ⟨y, hy, hf⟩ := List.mem_flatMap.mp hf
  rw [target_of_mem_endings he, target_of_mem_endings hf] at hef
  obtain rfl := List.inj_on_of_nodup_map h hx hy hef
  exact eq_of_mem_endings he hf

theorem alike_after {es fs : List Ending} {unguarded more : List Nat} (h : es.Perm fs)
    (hes : Unambiguous es) (hguards : unguarded.Perm more) (notices : List Nat) :
    Alike (t.after es unguarded notices) (t.after fs more notices) := by
  have hfilter : t.guards.filter (· ∉ more) = t.guards.filter (· ∉ unguarded) :=
    List.filter_congr fun id _ => by rw [decide_eq_decide, hguards.mem_iff]
  refine ⟨endAll_perm h hes, ?_⟩
  rw [after, after, hfilter]

/-! ## When the sweep takes its notices -/

/-- The history makes these removals in this order, with the sweep at work in between. -/
inductive Interleaved : List Removal → List Op → Prop
  | nil : Interleaved [] []
  | removal {xs : List Removal} {history : List Op} (x : Removal) :
      Interleaved xs history → Interleaved (x :: xs) (x.op :: history)
  | sweep {xs : List Removal} {history : List Op} :
      Interleaved xs history → Interleaved xs (.sweep :: history)

variable {history : List Op}

/-- What a removal does to the register, it does at once, or a notice will see to it. -/
theorem step_op (t : Tracking) (x : Removal) :
    ∃ now posted, now ++ posted.map .release = t.endings x ∧
      t.step x.op = t.after now x.unguarded (t.notices ++ posted) := by
  cases x with
  | release id =>
      refine ⟨[.release id], [], rfl, ?_⟩
      rw [Removal.unguarded, after_nil, List.append_nil]
      rfl
  | deregister id =>
      refine ⟨[.forget id], [], rfl, ?_⟩
      rw [Removal.unguarded, after_nil, List.append_nil]
      rfl
  | close id =>
      refine ⟨t.endings (.close id), [], List.append_nil _, ?_⟩
      rw [List.append_nil]
      exact remove_snd t (.close id)
  | abandon id =>
      by_cases hid : id ∈ t.guards
      · cases hs : t.sweeping with
        | false =>
            refine ⟨[.release id], [], by simp [endings, hid], ?_⟩
            rw [Removal.unguarded, after_singleton]
            simp [Removal.op, step, perform, dropGuard, hid, hs, cleanUp, endAll, ended]
        | true =>
            refine ⟨[], [id], by simp [endings, hid], ?_⟩
            rw [Removal.unguarded, after_singleton]
            simp [Removal.op, step, perform, dropGuard, hid, hs, endAll]
      · refine ⟨[], [], by simp [endings, hid], ?_⟩
        rw [Removal.unguarded, List.append_nil, after_of_not_mem hid]
        simp [Removal.op, step, perform, dropGuard, hid]

theorem step_sweep (t : Tracking) :
    t.step .sweep = t.after ((t.notices.take 1).map .release) [] (t.notices.drop 1) := by
  rw [after_nil]
  obtain ⟨registrations, handles, guards, notices, sweeping⟩ := t
  cases notices <;> rfl

theorem drain_eq (t : Tracking) : t.drain = t.after (t.notices.map .release) [] [] := by
  rw [after_nil, endAll_releases]
  rfl

/-- Whenever the sweep is at work, in the end the register has seen what was pending
before and what the removals do. -/
theorem Interleaved.drain_run (h : Interleaved xs history)
    (hdistinct : (xs.map Removal.target).Nodup) :
    ∃ es : List Ending, es.Perm (t.notices.map .release ++ xs.flatMap t.endings) ∧
      (t.run history).drain = t.after es (xs.flatMap Removal.unguarded) [] := by
  induction h generalizing t with
  | nil => exact ⟨t.notices.map .release, by simp, drain_eq t⟩
  | @removal xs history x _ ih =>
      obtain ⟨hx, hxs⟩ := List.nodup_cons.mp hdistinct
      obtain ⟨now, posted, hsplit, hstep⟩ := step_op t x
      obtain ⟨es, hperm, hrun⟩ := ih (t := t.step x.op) hxs
      have hendings : xs.flatMap (t.step x.op).endings = xs.flatMap t.endings := by
        refine List.flatMap_congr fun y hy => ?_
        rw [hstep]
        exact endings_after (not_mem_unguarded fun e => hx (e ▸ List.mem_map_of_mem hy))
      have hnotices : (t.step x.op).notices = t.notices ++ posted := by rw [hstep]; rfl
      rw [hendings, hnotices, List.map_append, List.append_assoc] at hperm
      refine ⟨now ++ es, ?_, ?_⟩
      · -- What is posted comes behind all that was pending before.
        have hfront := (hperm.append_left now).trans (List.perm_append_comm_assoc _ _ _)
        rwa [← List.append_assoc now, hsplit, ← List.flatMap_cons] at hfront
      · rw [run, List.foldl_cons, ← run, hrun, hstep, after_after, ← List.flatMap_cons]
  | @sweep xs history _ ih =>
      obtain ⟨es, hperm, hrun⟩ := ih (t := t.step .sweep) hdistinct
      have hendings : xs.flatMap (t.step .sweep).endings = xs.flatMap t.endings := by
        refine List.flatMap_congr fun y _ => ?_
        rw [step_sweep]
        exact endings_after List.not_mem_nil
      have hnotices : (t.step .sweep).notices = t.notices.drop 1 := by rw [step_sweep]; rfl
      rw [hendings, hnotices] at hperm
      refine ⟨(t.notices.take 1).map .release ++ es, ?_, ?_⟩
      · have hfront := hperm.append_left ((t.notices.take 1).map .release)
        rwa [← List.append_assoc, ← List.map_append, List.take_append_drop] at hfront
      · rw [run, List.foldl_cons, ← run, hrun, step_sweep, after_after, List.nil_append]

/-- Whenever the sweep is at work, each removal gets the answer that it would get at once. -/
theorem Interleaved.answers_eq (h : Interleaved xs history)
    (hdistinct : (xs.map Removal.target).Nodup) (hpending : ∀ x ∈ xs, x.target ∉ t.notices) :
    ((t.answers history).filter fun entry => entry.1 ≠ .sweep) =
      xs.map fun x => (x.op, (t.remove x).1) := by
  induction h generalizing t with
  | nil => rfl
  | @removal xs history x _ ih =>
      obtain ⟨hx, hxs⟩ := List.nodup_cons.mp hdistinct
      obtain ⟨_, hpending⟩ := List.forall_mem_cons.mp hpending
      obtain ⟨now, posted, hsplit, hstep⟩ := step_op t x
      have htarget : ∀ e ∈ now ++ posted.map Ending.release, e.target = x.target :=
        fun e he => target_of_mem_endings (hsplit ▸ he)
      have hne : ∀ y ∈ xs, y.target ≠ x.target := fun y hy e => hx (e ▸ List.mem_map_of_mem hy)
      have hop : x.op ≠ .sweep := by
        cases x <;> exact fun e => nomatch e
      have hlater : ∀ y ∈ xs, y.target ∉ (t.step x.op).notices := by
        intro y hy hm
        rw [hstep] at hm
        rcases List.mem_append.mp hm with hm | hm
        · exact hpending y hy hm
        · exact hne y hy (htarget (.release y.target)
            (List.mem_append_right _ (List.mem_map_of_mem hm)))
      have hsame : ∀ y ∈ xs, ((t.step x.op).remove y).1 = (t.remove y).1 := by
        intro y hy
        rw [hstep]
        refine remove_fst_after (fun e he => ?_) (not_mem_unguarded (hne y hy))
        rw [htarget e (List.mem_append_left _ he)]
        exact hne y hy
      rw [answers, List.filter_cons_of_pos (by simpa using hop), ih hxs hlater, perform_op_fst,
        List.map_cons]
      exact congrArg ((x.op, (t.remove x).1) :: ·)
        (List.map_congr_left fun y hy => by rw [hsame y hy])
  | @sweep xs history _ ih =>
      have hlater : ∀ y ∈ xs, y.target ∉ (t.step .sweep).notices := by
        intro y hy hm
        rw [step_sweep] at hm
        exact hpending y hy (List.mem_of_mem_drop hm)
      have hsame : ∀ y ∈ xs, ((t.step .sweep).remove y).1 = (t.remove y).1 := by
        intro y hy
        rw [step_sweep]
        refine remove_fst_after (fun e he => ?_) List.not_mem_nil
        obtain ⟨id, hid, rfl⟩ := List.mem_map.mp he
        exact fun hy' => hpending y hy (hy' ▸ List.mem_of_mem_take hid)
      rw [answers, List.filter_cons_of_neg (by simp), ih hdistinct hlater]
      exact List.map_congr_left fun y hy => by rw [hsame y hy]

theorem unambiguous_with_notices (hdistinct : (xs.map Removal.target).Nodup)
    (hpending : ∀ x ∈ xs, x.target ∉ t.notices) :
    Unambiguous (t.notices.map .release ++ xs.flatMap t.endings) := by
  have hcross : ∀ e ∈ t.notices.map Ending.release, ∀ f ∈ xs.flatMap t.endings,
      e.target ≠ f.target := by
    intro e he f hf hef
    obtain ⟨id, hid, rfl⟩ := List.mem_map.mp he
    obtain ⟨x, hx, hf⟩ := List.mem_flatMap.mp hf
    rw [target_of_mem_endings hf] at hef
    exact hpending x hx (hef ▸ hid)
  intro e he f hf hef
  rcases List.mem_append.mp he with he | he <;> rcases List.mem_append.mp hf with hf | hf
  · obtain ⟨i, _, rfl⟩ := List.mem_map.mp he
    obtain ⟨j, _, rfl⟩ := List.mem_map.mp hf
    exact congrArg Ending.release hef
  · exact absurd hef (hcross e he f hf)
  · exact absurd hef.symm (hcross f hf e he)
  · exact unambiguous_endings hdistinct e he f hf hef

theorem Interleaved.alike_drain (h : Interleaved ys history) (hperm : xs.Perm ys)
    (hdistinct : (xs.map Removal.target).Nodup) (hpending : ∀ x ∈ xs, x.target ∉ t.notices) :
    Alike (t.run history).drain (t.removeAll xs).drain := by
  have hys : (ys.map Removal.target).Nodup := (hperm.map _).nodup_iff.mp hdistinct
  obtain ⟨es, hes, hrun⟩ := h.drain_run (t := t) hys
  have hall : es.Perm (xs.flatMap t.endings ++ t.notices.map .release) :=
    (hes.trans ((hperm.symm.flatMap_right _).append_left _)).trans List.perm_append_comm
  have hunambiguous := unambiguous_with_notices hdistinct hpending
  rw [hrun, drain_eq, removeAll_eq hdistinct, after_after, List.append_nil]
  refine alike_after hall ?_ (hperm.symm.flatMap_right _) []
  intro e he f hf
  exact hunambiguous e (List.perm_append_comm.mem_iff.mp (hall.mem_iff.mp he)) f
    (List.perm_append_comm.mem_iff.mp (hall.mem_iff.mp hf))

/-- In whatever state a tracker is, removals of different registrations, be they releases,
deregistrations or the ends of guards, closed or dropped, can be made in any order: each
gets the same answer, how its socket fails included, and in the end the same is registered,
held, guarded and pending, with the same count of closes, and every socket has been closed
as often.

There a dropped guard has its registration released at once. If the sweep does it, it may
do so at any time, before, between or behind the other removals, and may take what was
pending before at any time, too, if that is about other registrations still: each removal
gets the answer that it gets above, and once no notice is left the tracker is the same. -/
theorem removals_commute (t : Tracking) (xs ys : List Removal) (hperm : xs.Perm ys)
    (hdistinct : (xs.map Removal.target).Nodup) :
    (t.removals xs).Perm (t.removals ys) ∧
    Alike (t.removeAll xs) (t.removeAll ys) ∧
    (∀ socket, (t.removeAll xs).registrations.closes socket =
      (t.removeAll ys).registrations.closes socket) ∧
    ∀ history, Interleaved ys history → (∀ x ∈ xs, x.target ∉ t.notices) →
      ((t.answers history).filter fun entry => entry.1 ≠ .sweep) =
        (t.removals ys).map (fun entry => (entry.1.op, entry.2)) ∧
      Alike (t.run history).drain (t.removeAll xs).drain := by
  have hys : (ys.map Removal.target).Nodup := (hperm.map _).nodup_iff.mp hdistinct
  have halike : Alike (t.removeAll xs) (t.removeAll ys) := by
    rw [removeAll_eq hdistinct, removeAll_eq hys]
    exact alike_after (hperm.flatMap_right _) (unambiguous_endings hdistinct)
      (hperm.flatMap_right _) _
  refine ⟨?_, halike, halike.books.closes_eq, ?_⟩
  · rw [removals_eq hdistinct, removals_eq hys]
    exact hperm.map _
  · intro history hhistory hpending
    refine ⟨?_, hhistory.alike_drain hperm hdistinct hpending⟩
    rw [removals_eq hys, List.map_map]
    exact hhistory.answers_eq hys fun y hy => hpending y (hperm.mem_iff.mpr hy)

/-- Five connections, one of which has been dropped; nobody has taken notice yet. -/
def oneDropped : Tracking :=
  (start true).run [.register none ⟨1, .fails "reset"⟩, .register none ⟨2, .panics⟩,
    .register none ⟨3, .succeeds⟩, .register none ⟨4, .succeeds⟩, .register none ⟨5, .succeeds⟩,
    .dropGuard 5]

/-- The other four in two orders, with the sweep at work in the second. -/
theorem removals_commute_oneDropped :
    (oneDropped.removals [.release 1, .abandon 2, .deregister 3, .close 4]).Perm
      (oneDropped.removals [.close 4, .abandon 2, .release 1, .deregister 3]) ∧
    (Removal.release 1, Answer.released (.error (.failed "reset"))) ∈
      oneDropped.removals [.close 4, .abandon 2, .release 1, .deregister 3] ∧
    (oneDropped.run [.close 4, .sweep, .dropGuard 2, .release 1, .sweep,
      .deregister 3]).drain.registrations.count = 0 ∧
    (oneDropped.run [.close 4, .sweep, .dropGuard 2, .release 1, .sweep,
      .deregister 3]).drain.registrations.released = 1 := by
  obtain ⟨hanswers, _, _, htiming⟩ := removals_commute oneDropped
    [.release 1, .abandon 2, .deregister 3, .close 4]
    [.close 4, .abandon 2, .release 1, .deregister 3] (by decide) (by decide)
  have hinterleaved : Interleaved [.close 4, .abandon 2, .release 1, .deregister 3]
      [.close 4, .sweep, .dropGuard 2, .release 1, .sweep, .deregister 3] :=
    .removal (.close 4) (.sweep (.removal (.abandon 2) (.removal (.release 1)
      (.sweep (.removal (.deregister 3) .nil)))))
  obtain ⟨_, halike⟩ := htiming _ hinterleaved (by decide)
  refine ⟨hanswers, hanswers.mem_iff.mp List.mem_cons_self, ?_, halike.books.released⟩
  exact congrArg List.length halike.books.live

end Tracking

end DbRoute
