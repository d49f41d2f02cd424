import DbRoute.Proofs.Tracker.Retention

/-!
# What becomes of every connection

A registration is live until its connection is dismissed or its socket is closed
by force, and then it is gone for good. So the registrations that were ever made
are those that are live, those that were dismissed, and those whose sockets were
closed, with success or without.

A close that fails is a close as any other: which registrations there are, who
holds what and what is pending does not depend on what the sockets do, and of the
answers none but that to the release of a socket tells what this socket did.
-/

namespace DbRoute

namespace Registrations

variable {r : Registrations} {id : Nat}

/-- How many sockets have been closed by force without success. -/
def failures (r : Registrations) : Nat := r.forced.countP (·.fails)

/-- The live registrations and those whose sockets were closed. -/
def size (r : Registrations) : Nat := r.count + r.forced.length

/-- A live registration is what is found under its number, and under no other. -/
theorem Numbered.find?_eq_some_iff (h : r.Numbered) {x : Registration} (hx : x ∈ r.live) :
    r.find? id = some x ↔ x.id = id := by
  refine ⟨fun hfind => (find?_eq_some hfind).2, ?_⟩
  rintro rfl
  cases hfind : r.find? x.id with
  | none => exact absurd (List.mem_map_of_mem hx) (find?_eq_none_iff.mp hfind)
  | some y =>
      obtain ⟨hy, hid⟩ := find?_eq_some hfind
      rw [List.inj_on_of_nodup_map h.live_nodup hy hx hid]

/-! ## Nothing is counted twice -/

theorem Numbered.count_forget (h : r.Numbered) (id : Nat) :
    (r.forget id).count + (if r.has id then 1 else 0) = r.count := by
  have hlength : ∀ r : Registrations, r.count = r.ids.length :=
    fun r => (List.length_map _).symm
  rw [hlength, hlength, ids_forget, ← h.live_nodup.erase_eq_filter]
  by_cases hid : id ∈ r.ids
  · have hpos := List.length_pos_of_mem hid
    rw [List.length_erase_of_mem hid, if_pos (has_iff.mpr hid)]
    omega
  · rw [List.erase_of_not_mem hid, if_neg (mt has_iff.mp hid), Nat.add_zero]

theorem size_register (r : Registrations) (state : Nat) (socket : Socket) :
    (r.register state socket).2.size = r.size + 1 := by
  show (r.live ++ [_]).length + r.forced.length = r.live.length + r.forced.length + 1
  rw [List.length_append, List.length_singleton]
  omega

theorem Numbered.size_forget (h : r.Numbered) (id : Nat) :
    (r.forget id).size + (if r.has id then 1 else 0) = r.size := by
  have hcount := h.count_forget id
  have hforced : (r.forget id).forced = r.forced := rfl
  rw [size, size, hforced]
  omega

theorem Numbered.size_release (h : r.Numbered) (id : Nat) : (r.release id).2.size = r.size := by
  cases hfind : r.find? id with
  | none => rw [release_of_find?_eq_none hfind]
  | some x =>
      have hcount := h.count_forget id
      rw [has, hfind, Option.isSome_some, if_pos rfl] at hcount
      rw [release_of_find?_eq_some hfind]
      show (r.forget id).count + (r.forced ++ [x]).length = r.count + r.forced.length
      rw [List.length_append, List.length_singleton]
      omega

theorem Numbered.size_releaseAll (h : r.Numbered) (ids : List Nat) :
    (r.releaseAll ids).size = r.size := by
  induction ids generalizing r with
  | nil => rfl
  | cons id ids ih => rw [releaseAll_cons, ih (h.release id), h.size_release]

/-- The counter tells how many closes have succeeded. -/
def Counted (r : Registrations) : Prop := r.released = r.forced.countP (!·.fails)

theorem Counted.length_forced (h : r.Counted) : r.forced.length = r.released + r.failures := by
  rw [h, failures, List.length_eq_countP_add_countP (·.fails), Nat.add_comm]
  simp

end Registrations

namespace Tracking

variable {t : Tracking} {op : Op}

/-! ## What one operation does -/

/-- The registrations whose sockets an operation closes by force, in order. -/
def closedBy (t : Tracking) (op : Op) : List Registration :=
  (t.releasedBy op).filterMap t.registrations.find?

/-- The registration that an operation dismisses, its socket left open. -/
def dismissedBy (t : Tracking) : Op → List Registration
  | .close id => if id ∈ t.guards then (t.registrations.find? id).toList else []
  | .deregister id => (t.registrations.find? id).toList
  | _ => []

/-- An operation takes out the registrations that it closes, whether or not their sockets
fail, and those that it dismisses, and no others, and counts the closes that succeed. -/
structure Accounts (t : Tracking) (op : Op) : Prop where
  live : (t.step op).registrations.live =
    (t.registrations.live.filter fun x => x ∉ t.closedBy op ∧ x ∉ t.dismissedBy op) ++
      t.registeredBy op
  forced : (t.step op).registrations.forced = t.registrations.forced ++ t.closedBy op
  released : (t.step op).registrations.released =
    t.registrations.released + (t.closedBy op).countP (!·.fails)

theorem nodup_releasedBy (h : t.registrations.Numbered) (op : Op) : (t.releasedBy op).Nodup := by
  cases op with
  | dropGuard id =>
      rw [releasedBy]
      split
      · exact List.nodup_singleton id
      · exact List.nodup_nil
  | sweep =>
      rw [releasedBy]
      cases t.notices with
      | nil => exact List.nodup_nil
      | cons id rest => exact List.nodup_singleton id
  | release id => exact List.nodup_singleton id
  | reap => exact h.live_nodup.sublist (List.filter_sublist.map _)
  | register _ _ | dropHandle _ | close _ | deregister _ => exact List.nodup_nil

theorem mem_closedBy (h : t.registrations.Numbered) {x : Registration}
    (hx : x ∈ t.registrations.live) : x ∈ t.closedBy op ↔ x.id ∈ t.releasedBy op := by
  simp [closedBy, h.find?_eq_some_iff hx]

/-- An operation that registers nothing and dismisses nothing only releases. -/
theorem accounts_of_releaseAll (h : t.registrations.Numbered)
    (hstep : (t.step op).registrations = t.registrations.releaseAll (t.releasedBy op))
    (hregistered : t.registeredBy op = []) (hdismissed : t.dismissedBy op = []) :
    Accounts t op := by
  rw [Registrations.releaseAll_eq (nodup_releasedBy h op)] at hstep
  refine ⟨?_, by rw [hstep, closedBy], by rw [hstep, closedBy]⟩
  rw [hstep, hregistered, hdismissed, List.append_nil]
  refine List.filter_congr fun x hx => ?_
  simp [mem_closedBy h hx]

/-- An operation that forgets a registration dismisses it. -/
theorem accounts_of_forget (h : t.registrations.Numbered) {id : Nat}
    (hstep : (t.step op).registrations = t.registrations.forget id)
    (hregistered : t.registeredBy op = [])
    (hdismissed : t.dismissedBy op = (t.registrations.find? id).toList)
    (hreleased : t.releasedBy op = []) : Accounts t op := by
  have hclosed : t.closedBy op = [] := by rw [closedBy, hreleased, List.filterMap_nil]
  refine ⟨?_, ?_, ?_⟩
  · rw [hstep, hregistered, hdismissed, hclosed, List.append_nil]
    refine List.filter_congr fun x hx => ?_
    rw [Bool.eq_iff_iff]
    simp [h.find?_eq_some_iff hx]
  · rw [hstep, hclosed, List.append_nil]
    rfl
  · rw [hstep, hclosed]
    rfl

theorem accounts (h : t.registrations.Numbered) (op : Op) : Accounts t op := by
  have hstep := t.registrations_step op
  cases op with
  | register share socket =>
      refine ⟨?_, ?_, ?_⟩
      · rw [hstep]
        simp [registrationsAfter, Registrations.register, registeredBy, closedBy, releasedBy,
          dismissedBy]
      · exact hstep ▸ (List.append_nil _).symm
      · exact hstep ▸ rfl
  | deregister id => exact accounts_of_forget h hstep rfl rfl rfl
  | close id =>
      by_cases hid : id ∈ t.guards
      · rw [registrationsAfter, if_pos hid] at hstep
        exact accounts_of_forget h hstep rfl (if_pos hid) rfl
      · rw [registrationsAfter, if_neg hid] at hstep
        exact accounts_of_releaseAll h hstep rfl (if_neg hid)
  | dropHandle _ | dropGuard _ | sweep | release _ | reap =>
      exact accounts_of_releaseAll h hstep rfl rfl

/-! ## The books -/

/-- The operation makes a registration. -/
def Op.registers : Op → Bool
  | .register _ _ => true
  | _ => false

/-- The operation took a registration out and left its socket open. -/
def dismisses : Op → Answer → Bool
  | .deregister _, .flag known => known
  | .close _, .closed (some known) => known
  | _, _ => false

/-- The operations of a history with their answers. -/
def answers (t : Tracking) : List Op → List (Op × Answer)
  | [] => []
  | op :: history => (op, (t.perform op).1) :: (t.step op).answers history

/-- How often a history dismisses a connection. -/
def dismissals (t : Tracking) (history : List Op) : Nat :=
  (t.answers history).countP fun entry => dismisses entry.1 entry.2

theorem balance_step (h : t.registrations.Numbered) (op : Op) :
    (t.step op).registrations.size + (if dismisses op (t.perform op).1 then 1 else 0) =
      t.registrations.size + if op.registers then 1 else 0 := by
  rw [registrations_step]
  cases op with
  | register share socket => exact Registrations.size_register _ _ _
  | deregister id => exact h.size_forget id
  | close id =>
      by_cases hid : id ∈ t.guards
      · rw [registrationsAfter, if_pos hid, perform, close, if_pos hid]
        exact h.size_forget id
      · rw [registrationsAfter, if_neg hid, perform, close, if_neg hid]
        rfl
  | dropHandle _ | dropGuard _ | sweep | release _ | reap => exact h.size_releaseAll _

theorem Sound.balance_run (h : t.Sound) (history : List Op) :
    (t.run history).registrations.size + t.dismissals history =
      t.registrations.size + history.countP Op.registers := by
  induction history generalizing t with
  | nil => rfl
  | cons op history ih =>
      have hstep := balance_step h.numbered op
      have hrun := ih (h.step op)
      rw [dismissals, answers, List.countP_cons, List.countP_cons]
      rw [dismissals] at hrun
      change ((t.step op).run history).registrations.size +
        (_ + if dismisses op (t.perform op).1 then 1 else 0) = _
      omega

theorem Sound.counted_run (h : t.Sound) (hcounted : t.registrations.Counted)
    (history : List Op) : (t.run history).registrations.Counted := by
  induction history generalizing t with
  | nil => exact hcounted
  | cons op history ih =>
      apply ih (h.step op)
      have hop := accounts h.numbered op
      rw [Registrations.Counted, hop.forced, hop.released, List.countP_append, hcounted]

/-! ## A close is never made again -/

theorem Sound.forced_prefix (h : t.Sound) (history : List Op) :
    t.registrations.forced <+: (t.run history).registrations.forced := by
  induction history generalizing t with
  | nil => exact List.prefix_rfl
  | cons op history ih =>
      refine List.IsPrefix.trans ?_ (ih (h.step op))
      rw [(accounts h.numbered op).forced]
      exact List.prefix_append _ _

theorem Sound.forced_once (h : t.Sound) {x : Registration} (hx : x ∈ t.registrations.forced)
    (history : List Op) :
    x.id ∉ (t.run history).registrations.ids ∧ (t.run history).forcings x.id = 1 := by
  have hnumbered := (h.run history).numbered
  have hforced : x.id ∈ (t.run history).registrations.forcedIds :=
    List.mem_map_of_mem ((h.forced_prefix history).subset hx)
  refine ⟨hnumbered.forced_gone x.id hforced, ?_⟩
  exact List.count_eq_one_of_mem hnumbered.forced_nodup hforced

end Tracking

/-! ## What the sockets do is without effect -/

section Behaving

variable (b : Socket → ForcedClose)

def Socket.behaving (s : Socket) : Socket := { s with forcedClose := b s }

def Registration.behaving (x : Registration) : Registration :=
  { x with socket := x.socket.behaving b }

namespace Registrations

variable (r : Registrations) (id : Nat)

/-- The register, if all sockets behaved as told and had always done so. -/
def behaving : Registrations :=
  { r with
    live := r.live.map (·.behaving b)
    forced := r.forced.map (·.behaving b)
    released := (r.forced.map (·.behaving b)).countP (!·.fails) }

theorem find?_behaving : (r.behaving b).find? id = (r.find? id).map (·.behaving b) :=
  List.find?_map

theorem has_behaving : (r.behaving b).has id = r.has id := by
  rw [has, find?_behaving, Option.isSome_map, has]

theorem forget_behaving : (r.behaving b).forget id = (r.forget id).behaving b := by
  simp only [forget, behaving, List.filter_map]
  rfl

theorem register_behaving (state : Nat) (socket : Socket) :
    (r.behaving b).register state (socket.behaving b) =
      (r.nextId, (r.register state socket).2.behaving b) := by
  simp [register, behaving, Registration.behaving]

theorem release_behaving :
    (r.behaving b).release id =
      ((r.find? id).elim (.ok false) fun x => (b x.socket).run.map fun _ => true,
        (r.release id).2.behaving b) := by
  cases h : r.find? id with
  | none =>
      rw [release_of_find?_eq_none h, release_of_find?_eq_none (by rw [find?_behaving, h]; rfl)]
      rfl
  | some x =>
      rw [release_of_find?_eq_some h,
        release_of_find?_eq_some (x := x.behaving b) (by rw [find?_behaving, h]; rfl),
        forget_behaving]
      simp [behaving, forget, Registration.behaving, Socket.behaving]

theorem releaseAll_behaving (ids : List Nat) :
    (r.behaving b).releaseAll ids = (r.releaseAll ids).behaving b := by
  induction ids generalizing r with
  | nil => rfl
  | cons id ids ih => rw [releaseAll_cons, release_behaving, ih, releaseAll_cons]

end Registrations

namespace Tracking

variable (t : Tracking) (id : Nat)

/-- The tracker, if all sockets behaved as told and had always done so. -/
def behaving : Tracking := { t with registrations := t.registrations.behaving b }

def Op.behaving : Op → Op
  | .register share socket => .register share (socket.behaving b)
  | op => op

/-- The answer to an operation, if all sockets behaved as told. -/
def answerWith (t : Tracking) : Op → Answer
  | .release id => .released ((t.registrations.find? id).elim (.ok false) fun x =>
      (b x.socket).run.map fun _ => true)
  | op => (t.perform op).1

theorem register_behaving (share : Option Nat) (socket : Socket) :
    (t.behaving b).register share (socket.behaving b) =
      (t.registrations.nextId, (t.register share socket).2.behaving b) := by
  rw [register, behaving, Registrations.register_behaving]
  rfl

theorem cleanUp_behaving : (t.behaving b).cleanUp id = (t.cleanUp id).behaving b := by
  rw [cleanUp, behaving, Registrations.release_behaving]
  rfl

theorem dropGuard_behaving :
    (t.behaving b).dropGuard id = ((t.dropGuard id).1, (t.dropGuard id).2.behaving b) := by
  by_cases hid : id ∈ t.guards
  · cases hs : t.sweeping
    · have hclean := cleanUp_behaving b { t with guards := t.guards.filter (· != id) } id
      simpa [dropGuard, behaving, hid, hs] using hclean
    · simp [dropGuard, behaving, hid, hs]
  · simp [dropGuard, behaving, hid]

theorem sweep_behaving : (t.behaving b).sweep = t.sweep.behaving b := by
  cases hn : t.notices with
  | nil => simp [sweep, behaving, hn]
  | cons id rest =>
      have hclean := cleanUp_behaving b { t with notices := rest } id
      simpa [sweep, behaving, hn] using hclean

theorem deregister_behaving :
    (t.behaving b).deregister id = ((t.deregister id).1, (t.deregister id).2.behaving b) := by
  simp [deregister, Registrations.deregister, behaving, Registrations.has_behaving,
    Registrations.forget_behaving]

theorem close_behaving :
    (t.behaving b).close id = ((t.close id).1, (t.close id).2.behaving b) := by
  by_cases hid : id ∈ t.guards
  · simp [close, Registrations.deregister, behaving, hid, Registrations.has_behaving,
      Registrations.forget_behaving]
  · simp [close, behaving, hid]

theorem unreachable_behaving : (t.behaving b).unreachable = t.unreachable := by
  simp only [unreachable, behaving, Registrations.behaving, List.filter_map, List.map_map]
  rfl

theorem reap_behaving : (t.behaving b).reap = (t.reap.1, t.reap.2.behaving b) := by
  rw [reap, unreachable_behaving, behaving, Registrations.releaseAll_behaving]
  rfl

theorem perform_behaving (op : Op) :
    (t.behaving b).perform (op.behaving b) = (t.answerWith b op, (t.step op).behaving b) := by
  cases op with
  | register share socket =>
      simp only [Op.behaving, perform, register_behaving, answerWith, step]
      rfl
  | dropHandle owner => rfl
  | dropGuard id => simp only [Op.behaving, perform, dropGuard_behaving, answerWith, step]
  | sweep => simp only [Op.behaving, perform, sweep_behaving, answerWith, step]
  | close id => simp only [Op.behaving, perform, close_behaving, answerWith, step]
  | release id =>
      simp only [Op.behaving, perform, release, behaving, Registrations.release_behaving,
        answerWith, step]
  | deregister id => simp only [Op.behaving, perform, deregister_behaving, answerWith, step]
  | reap => simp only [Op.behaving, perform, reap_behaving, answerWith, step]

theorem run_behaving (history : List Op) :
    (t.behaving b).run (history.map (·.behaving b)) = (t.run history).behaving b := by
  induction history generalizing t with
  | nil => rfl
  | cons op history ih =>
      have hstep : (t.behaving b).step (op.behaving b) = (t.step op).behaving b :=
        congrArg Prod.snd (perform_behaving b t op)
      rw [List.map_cons, run, List.foldl_cons, hstep]
      exact ih (t.step op)

end Tracking

end Behaving

namespace Tracking

/-- Over any history, with or without a sweep, every registration made is live, or was
dismissed by a call that said so, or its socket was closed by force, with success or
without; and the sockets closed by force are those that the counter counts and those that
failed. From there every operation takes out the registrations that it closes or dismisses,
be it that a socket fails, and no others; what was closed by force, failures included, is
registered never again and closed never again; and were the sockets to behave otherwise, and
had they always done so, then the tracker would differ in the counter only, and in its
answers only to who releases a socket that behaves otherwise. -/
theorem registrations_balance (sweeping : Bool) (history : List Op) :
    history.countP Op.registers =
      ((start sweeping).run history).registrations.count +
        (start sweeping).dismissals history +
        ((start sweeping).run history).registrations.released +
        ((start sweeping).run history).registrations.failures ∧
    ((start sweeping).run history).registrations.forced.length =
      ((start sweeping).run history).registrations.released +
        ((start sweeping).run history).registrations.failures ∧
    (∀ op, Accounts ((start sweeping).run history) op) ∧
    (∀ x ∈ ((start sweeping).run history).registrations.forced, ∀ later,
      x.id ∉ ((start sweeping).run (history ++ later)).registrations.ids ∧
        ((start sweeping).run (history ++ later)).forcings x.id = 1) ∧
    ∀ b : Socket → ForcedClose,
      (start sweeping).run (history.map (·.behaving b)) =
        ((start sweeping).run history).behaving b ∧
      ∀ op, ((start sweeping).run (history.map (·.behaving b))).perform (op.behaving b) =
        (((start sweeping).run history).answerWith b op,
          ((start sweeping).run (history ++ [op])).behaving b) := by
  have hsound := sound_start sweeping
  have hrun : ((start sweeping).run history).Sound := hsound.run history
  have hforced := (hsound.counted_run rfl history).length_forced
  have hbalance := hsound.balance_run history
  refine ⟨?_, hforced, accounts hrun.numbered, ?_, ?_⟩
  · have hzero : (start sweeping).registrations.size = 0 := rfl
    rw [hzero, Registrations.size, hforced] at hbalance
    omega
  · intro x hx later
    rw [run_append]
    exact hrun.forced_once hx later
  · intro b
    have hbehaving := run_behaving b (start sweeping) history
    refine ⟨hbehaving, fun op => ?_⟩
    rw [run_snoc, ← perform_behaving]
    exact congrArg (·.perform (op.behaving b)) hbehaving

/-- A socket that fails and one that panics do not keep the third from being closed. -/
example :
    let t := (start true).run [.register none ⟨1, .fails "reset"⟩, .register none ⟨2, .panics⟩,
      .register none ⟨3, .succeeds⟩, .dropGuard 1, .dropGuard 2, .dropGuard 3, .sweep, .sweep,
      .sweep]
    t.registrations.count = 0 ∧ t.registrations.released = 1 ∧ t.registrations.failures = 2 := by
  decide

end Tracking

end DbRoute
