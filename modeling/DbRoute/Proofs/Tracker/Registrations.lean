import DbRoute.Tracker.Registrations
import Mathlib.Data.List.Count
import Mathlib.Data.List.Nodup

/-!
# What the register of connections keeps

Numbers are given out in increasing order, so a number that was given out and
is live no longer never comes back. A release moves a registration from the
live ones to the forced ones, and nothing else adds to the forced ones: this
is why no socket is closed by force twice.
-/

namespace DbRoute

/-- To close the socket of the registration by force does not succeed. -/
def Registration.fails (x : Registration) : Bool :=
  x.socket.forcedClose != .succeeds

namespace Registrations

variable {r : Registrations} {id : Nat}

def forcedIds (r : Registrations) : List Nat := r.forced.map (·.id)

/-- How often the socket of a registration has been closed by force. -/
def forcings (r : Registrations) (id : Nat) : Nat := r.forcedIds.count id

/-! ## The operations one by one -/

theorem find?_eq_some {x : Registration} (h : r.find? id = some x) :
    x ∈ r.live ∧ x.id = id :=
  ⟨List.mem_of_find?_eq_some h, by simpa using List.find?_some h⟩

theorem find?_eq_none_iff : r.find? id = none ↔ id ∉ r.ids := by
  simp [find?, ids]

theorem has_iff : r.has id = true ↔ id ∈ r.ids := by
  rw [has, Option.isSome_iff_ne_none, ne_eq, find?_eq_none_iff, not_not]

theorem ids_forget (r : Registrations) (id : Nat) :
    (r.forget id).ids = r.ids.filter (· != id) := by
  simp only [ids, forget, List.filter_map]
  rfl

theorem mem_ids_forget {i : Nat} : i ∈ (r.forget id).ids ↔ i ∈ r.ids ∧ i ≠ id := by
  rw [ids_forget, List.mem_filter, bne_iff_ne]

@[simp] theorem nextId_forget : (r.forget id).nextId = r.nextId := rfl

theorem ids_register (r : Registrations) (state : Nat) (socket : Socket) :
    (r.register state socket).2.ids = r.ids ++ [r.nextId] := by
  simp [register, ids]

@[simp] theorem nextId_register {state : Nat} {socket : Socket} :
    (r.register state socket).2.nextId = r.nextId + 1 := rfl

theorem release_of_find?_eq_some {x : Registration} (h : r.find? id = some x) :
    r.release id = (x.socket.forcedClose.run.map fun _ => true,
      { r.forget id with
        forced := r.forced ++ [x]
        released := r.released + [x].countP (!·.fails) }) := by
  rw [release, h]
  obtain ⟨_, _, _, forcedClose⟩ := x
  cases forcedClose <;> rfl

theorem release_of_find?_eq_none (h : r.find? id = none) : r.release id = (.ok false, r) := by
  rw [release, h]

/-- A release of what is gone does nothing. Any other release forgets the
registration and closes its socket, whether or not that fails. -/
theorem release_cases (r : Registrations) (id : Nat) :
    (id ∉ r.ids ∧ (r.release id).2 = r) ∨
    ∃ x ∈ r.live, x.id = id ∧
      (r.release id).2.live = (r.forget id).live ∧
      (r.release id).2.forced = r.forced ++ [x] ∧
      (r.release id).2.nextId = r.nextId := by
  cases h : r.find? id with
  | none => exact Or.inl ⟨find?_eq_none_iff.mp h, by rw [release_of_find?_eq_none h]⟩
  | some x =>
      obtain ⟨hx, hid⟩ := find?_eq_some h
      refine Or.inr ⟨x, hx, hid, ?_⟩
      rw [release_of_find?_eq_some h]
      exact ⟨rfl, rfl, rfl⟩

@[simp] theorem nextId_release : (r.release id).2.nextId = r.nextId := by
  rcases release_cases r id with ⟨_, h⟩ | ⟨x, _, _, _, _, h⟩
  · rw [h]
  · exact h

theorem releaseAll_cons (r : Registrations) (id : Nat) (ids : List Nat) :
    r.releaseAll (id :: ids) = (r.release id).2.releaseAll ids := rfl

/-- What one release keeps, any number of them keeps. -/
theorem releaseAll_induct {P : Registrations → Prop}
    (step : ∀ (r : Registrations) (id : Nat), P r → P (r.release id).2)
    (h : P r) (ids : List Nat) : P (r.releaseAll ids) := by
  induction ids generalizing r with
  | nil => exact h
  | cons id ids ih => exact ih (step r id h)

@[simp] theorem nextId_releaseAll (r : Registrations) (ids : List Nat) :
    (r.releaseAll ids).nextId = r.nextId :=
  releaseAll_induct (P := fun s => s.nextId = r.nextId)
    (fun _ _ h => nextId_release.trans h) rfl ids

theorem mem_ids_release {i : Nat} :
    i ∈ (r.release id).2.ids ↔ i ∈ r.ids ∧ i ≠ id := by
  rcases release_cases r id with ⟨hid, h⟩ | ⟨x, _, _, h, _, _⟩
  · rw [h]
    exact ⟨fun hi => ⟨hi, fun e => hid (e ▸ hi)⟩, fun hi => hi.1⟩
  · rw [ids, h]
    exact mem_ids_forget

theorem mem_live_forget {x : Registration} :
    x ∈ (r.forget id).live ↔ x ∈ r.live ∧ x.id ≠ id := by
  rw [forget, List.mem_filter, bne_iff_ne]

theorem mem_live_release {x : Registration} :
    x ∈ (r.release id).2.live ↔ x ∈ r.live ∧ x.id ≠ id := by
  rcases release_cases r id with ⟨hid, h⟩ | ⟨y, _, _, h, _, _⟩
  · rw [h]
    exact ⟨fun hx => ⟨hx, fun e => hid (e ▸ List.mem_map_of_mem hx)⟩, fun hx => hx.1⟩
  · rw [h]
    exact mem_live_forget

theorem mem_live_releaseAll {ids : List Nat} {x : Registration} :
    x ∈ (r.releaseAll ids).live ↔ x ∈ r.live ∧ x.id ∉ ids := by
  induction ids generalizing r with
  | nil => simp [releaseAll]
  | cons id ids ih =>
      rw [releaseAll_cons, ih, mem_live_release, List.mem_cons, not_or, and_assoc]

/-- Releases only ever add to the forced ones, each of them a live registration
that was to be released. -/
theorem releaseAll_forced (r : Registrations) (ids : List Nat) :
    ∃ added, (r.releaseAll ids).forced = r.forced ++ added ∧
      ∀ x ∈ added, x ∈ r.live ∧ x.id ∈ ids := by
  induction ids generalizing r with
  | nil => exact ⟨[], by simp [releaseAll]⟩
  | cons id ids ih =>
      obtain ⟨added, hforced, hadded⟩ := ih (r.release id).2
      rcases release_cases r id with ⟨_, h⟩ | ⟨y, hy, hid, hlive, hf, _⟩
      · rw [h] at hforced hadded
        refine ⟨added, ?_, fun x hx => ⟨(hadded x hx).1, by simp [(hadded x hx).2]⟩⟩
        rw [releaseAll_cons, h, hforced]
      · refine ⟨y :: added, ?_, ?_⟩
        · rw [releaseAll_cons, hforced, hf, List.append_assoc, List.singleton_append]
        · intro x hx
          rcases List.mem_cons.mp hx with rfl | hx
          · exact ⟨hy, by simp [hid]⟩
          · obtain ⟨hx, hm⟩ := hadded x hx
            rw [hlive] at hx
            exact ⟨List.mem_of_mem_filter hx, List.mem_cons_of_mem _ hm⟩

/-! ## Exactly what releases do -/

theorem forget_of_find?_eq_none (h : r.find? id = none) : r.forget id = r := by
  have hall : r.live.filter (·.id != id) = r.live := by
    refine List.filter_eq_self.mpr fun x hx => ?_
    rw [bne_iff_ne]
    exact fun hid => find?_eq_none_iff.mp h (hid ▸ List.mem_map_of_mem hx)
  rw [forget, hall]

/-- Whatever the socket does, its registration goes; only the counter tells a failure. -/
theorem release_snd (r : Registrations) (id : Nat) :
    (r.release id).2 =
      { r.forget id with
        forced := r.forced ++ (r.find? id).toList
        released := r.released + (r.find? id).toList.countP (!·.fails) } := by
  cases h : r.find? id with
  | none =>
      rw [release_of_find?_eq_none h, forget_of_find?_eq_none h]
      simp
  | some x => exact congrArg Prod.snd (release_of_find?_eq_some h)

theorem find?_release_of_ne {i : Nat} (h : i ≠ id) : (r.release id).2.find? i = r.find? i := by
  rw [release_snd, find?, forget, List.find?_filter, find?]
  refine congrArg (List.find? · r.live) (funext fun x => ?_)
  by_cases hx : x.id = i <;> simp [hx, h]

/-- To release different registrations is to take all of them out, as many as are there. -/
theorem releaseAll_eq {ids : List Nat} (h : ids.Nodup) :
    r.releaseAll ids =
      { r with
        live := r.live.filter (·.id ∉ ids)
        forced := r.forced ++ ids.filterMap r.find?
        released := r.released + (ids.filterMap r.find?).countP (!·.fails) } := by
  induction ids generalizing r with
  | nil => simp [releaseAll]
  | cons id ids ih =>
      obtain ⟨hid, hids⟩ := List.nodup_cons.mp h
      have hrest : ids.filterMap (r.release id).2.find? = ids.filterMap r.find? :=
        List.filterMap_congr fun i hi => find?_release_of_ne fun e => hid (e ▸ hi)
      have hall : (r.find? id).toList ++ ids.filterMap r.find? = (id :: ids).filterMap r.find? := by
        rw [List.filterMap_cons]
        cases r.find? id <;> rfl
      rw [releaseAll_cons, ih hids, hrest, release_snd, ← hall]
      simp only [forget, List.filter_filter, List.append_assoc, List.countP_append, Nat.add_assoc,
        List.mem_cons, not_or]
      congr 1
      refine List.filter_congr fun x _ => ?_
      by_cases hx : x.id = id <;> simp [hx]

/-! ## Numbers are never given out twice -/

/-- Live and forced registrations bear different numbers, all given out. -/
structure Numbered (r : Registrations) : Prop where
  live_nodup : r.ids.Nodup
  live_lt : ∀ id ∈ r.ids, id < r.nextId
  forced_nodup : r.forcedIds.Nodup
  forced_lt : ∀ id ∈ r.forcedIds, id < r.nextId
  forced_gone : ∀ id ∈ r.forcedIds, id ∉ r.ids

theorem numbered_empty : Numbered {} where
  live_nodup := List.nodup_nil
  live_lt := by simp [ids]
  forced_nodup := List.nodup_nil
  forced_lt := by simp [forcedIds]
  forced_gone := by simp [forcedIds]

theorem Numbered.register (h : r.Numbered) (state : Nat) (socket : Socket) :
    (r.register state socket).2.Numbered where
  live_nodup := by
    rw [ids_register]
    refine List.nodup_append.mpr ⟨h.live_nodup, by simp, ?_⟩
    intro a ha b hb
    rw [List.mem_singleton.mp hb]
    exact Nat.ne_of_lt (h.live_lt a ha)
  live_lt := by
    intro i hi
    rw [ids_register, List.mem_append, List.mem_singleton] at hi
    rw [nextId_register]
    rcases hi with hi | rfl
    · exact Nat.lt_succ_of_lt (h.live_lt i hi)
    · exact Nat.lt_succ_self _
  forced_nodup := h.forced_nodup
  forced_lt := fun i hi => Nat.lt_succ_of_lt (h.forced_lt i hi)
  forced_gone := by
    intro i hi hlive
    rw [ids_register, List.mem_append, List.mem_singleton] at hlive
    rcases hlive with hlive | rfl
    · exact h.forced_gone i hi hlive
    · exact Nat.lt_irrefl _ (h.forced_lt _ hi)

theorem Numbered.forget (h : r.Numbered) (id : Nat) : (r.forget id).Numbered where
  live_nodup := by
    rw [ids_forget]
    exact h.live_nodup.filter _
  live_lt := fun i hi => h.live_lt i (mem_ids_forget.mp hi).1
  forced_nodup := h.forced_nodup
  forced_lt := h.forced_lt
  forced_gone := fun i hi hlive => h.forced_gone i hi (mem_ids_forget.mp hlive).1

theorem Numbered.release (h : r.Numbered) (id : Nat) : (r.release id).2.Numbered := by
  rcases release_cases r id with ⟨_, he⟩ | ⟨x, hx, rfl, hlive, hforced, hnext⟩
  · rw [he]
    exact h
  · have hids : (r.release x.id).2.ids = (r.forget x.id).ids := by rw [ids, hlive, ids]
    have hmem : x.id ∈ r.ids := List.mem_map_of_mem hx
    have hf : (r.release x.id).2.forcedIds = r.forcedIds ++ [x.id] := by
      rw [forcedIds, hforced, List.map_append, List.map_singleton, forcedIds]
    have hforget := h.forget x.id
    refine ⟨hids ▸ hforget.live_nodup, ?_, ?_, ?_, ?_⟩
    · rw [hids, hnext]
      exact hforget.live_lt
    · rw [hf]
      refine List.nodup_append.mpr ⟨h.forced_nodup, by simp, ?_⟩
      intro a ha b hb e
      rw [List.mem_singleton.mp hb] at e
      exact h.forced_gone a ha (e ▸ hmem)
    · intro i hi
      rw [hf, List.mem_append, List.mem_singleton] at hi
      rw [hnext]
      rcases hi with hi | rfl
      · exact h.forced_lt i hi
      · exact h.live_lt _ hmem
    · intro i hi
      rw [hf, List.mem_append, List.mem_singleton] at hi
      rw [mem_ids_release]
      rcases hi with hi | rfl
      · exact fun hlive => h.forced_gone i hi hlive.1
      · exact fun hlive => hlive.2 rfl

theorem Numbered.releaseAll (h : r.Numbered) (ids : List Nat) : (r.releaseAll ids).Numbered :=
  releaseAll_induct (fun _ id h => h.release id) h ids

theorem Numbered.forcings_le_one (h : r.Numbered) (id : Nat) : r.forcings id ≤ 1 :=
  List.nodup_iff_count_le_one.mp h.forced_nodup id

/-- Releases close the socket of a registration only if it is live and to be released. -/
theorem exists_live_of_forcings_lt {ids : List Nat}
    (h : r.forcings id < (r.releaseAll ids).forcings id) :
    id ∈ ids ∧ ∃ x ∈ r.live, x.id = id := by
  obtain ⟨added, hforced, hadded⟩ := r.releaseAll_forced ids
  simp only [forcings, forcedIds, hforced, List.map_append, List.count_append] at h
  have hpos : 0 < (added.map (·.id)).count id := by omega
  obtain ⟨x, hx, rfl⟩ := List.mem_map.mp (List.count_pos_iff.mp hpos)
  exact ⟨(hadded x hx).2, x, (hadded x hx).1, rfl⟩

/-! ## What is forgotten stays forgotten -/

/-- The number was given out, and its registration has gone without a forced close. -/
structure Dismissed (r : Registrations) (id : Nat) : Prop where
  lt : id < r.nextId
  not_live : id ∉ r.ids
  not_forced : id ∉ r.forcedIds

theorem Dismissed.register (h : r.Dismissed id) (state : Nat) (socket : Socket) :
    (r.register state socket).2.Dismissed id where
  lt := Nat.lt_succ_of_lt h.lt
  not_live := by
    rw [ids_register, List.mem_append, List.mem_singleton]
    exact fun hm => hm.elim h.not_live (Nat.ne_of_lt h.lt)
  not_forced := h.not_forced

theorem Dismissed.forget (h : r.Dismissed id) (i : Nat) : (r.forget i).Dismissed id where
  lt := h.lt
  not_live := fun hm => h.not_live (mem_ids_forget.mp hm).1
  not_forced := h.not_forced

theorem Dismissed.release (h : r.Dismissed id) (i : Nat) : (r.release i).2.Dismissed id where
  lt := nextId_release (r := r) ▸ h.lt
  not_live := fun hm => h.not_live (mem_ids_release.mp hm).1
  not_forced := by
    rcases release_cases r i with ⟨_, he⟩ | ⟨x, hx, _, _, hforced, _⟩
    · rw [he]
      exact h.not_forced
    · rw [forcedIds, hforced, List.map_append, List.mem_append, List.map_singleton,
        List.mem_singleton]
      rintro (hm | rfl)
      · exact h.not_forced hm
      · exact h.not_live (List.mem_map_of_mem hx)

theorem Dismissed.releaseAll (h : r.Dismissed id) (ids : List Nat) :
    (r.releaseAll ids).Dismissed id :=
  releaseAll_induct (P := (·.Dismissed id)) (fun _ i h => h.release i) h ids

/-- A live registration that is forgotten is dismissed. -/
theorem Numbered.dismissed_forget (h : r.Numbered) (hlive : id ∈ r.ids) :
    (r.forget id).Dismissed id where
  lt := h.live_lt id hlive
  not_live := fun hm => (mem_ids_forget.mp hm).2 rfl
  not_forced := fun hm => h.forced_gone id hm hlive

theorem Dismissed.forcings_eq_zero (h : r.Dismissed id) : r.forcings id = 0 :=
  List.count_eq_zero.mpr h.not_forced

end Registrations

end DbRoute
