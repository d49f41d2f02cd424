import DbRoute.Driver
import Mathlib.Data.Set.Insert
import Mathlib.Logic.Function.Basic

/-!
# The ledger of a pool

What the requests alone say of the connections of a pool: which are live, under
which number each was registered and with which socket, whether a close has
succeeded, and which were dropped before one had. A ledger knows nothing of
guards, handles or notices.
-/

namespace DbRoute

/-- The session that a request leads to, if the URL makes a plan and the connector agrees. -/
def Driver.session? (d : Driver) (connector : Connector) (url : String)
    (overrides : Properties) : Option Session :=
  match d.plan? url overrides with
  | .ok (some plan) => (connector plan).toOption
  | _ => none

namespace Ledger

/-- A live connection. -/
structure Entry where
  /-- What was registered for it, if its driver tracks and its session has a socket. -/
  registration : Option Registration
  /-- The cause for which its session refuses to close. -/
  closeFailure : Option String
  /-- Whether a close has succeeded. -/
  closed : Bool

/-- What is tracked of a connection: its registration, until a close succeeds. -/
def Entry.tracked? (e : Entry) : Option Registration :=
  if e.closed then none else e.registration

end Ledger

structure Ledger where
  /-- How many connections have been registered. -/
  registered : Nat := 0
  live : String → Option Ledger.Entry := fun _ => none
  /-- What was dropped while it was tracked, in that order. -/
  abandoned : List Registration := []

namespace Ledger

def registration? (l : Ledger) (name : String) : Option Registration :=
  (l.live name).bind Entry.registration

def tracked? (l : Ledger) (name : String) : Option Registration :=
  (l.live name).bind Entry.tracked?

/-- Everything that is tracked. -/
def tracked (l : Ledger) : Set Registration :=
  {x | ∃ name, l.tracked? name = some x}

def drop (l : Ledger) (name : String) : Ledger :=
  { l with
    live := Function.update l.live name none
    abandoned := l.abandoned ++ (l.tracked? name).toList }

def close (l : Ledger) (name : String) : Ledger :=
  match l.live name with
  | some ⟨registration, none, _⟩ =>
      { l with live := Function.update l.live name (some ⟨registration, none, true⟩) }
  | _ => l

/-- The registration of a new session. It has a state of its own. -/
def newRegistration? (l : Ledger) (tracks : Bool) (session : Session) : Option Registration :=
  if tracks then session.socket.map fun socket => ⟨l.registered + 1, l.registered + 1, socket⟩
  else none

def connect (l : Ledger) (tracks : Bool) (name : String) (session : Session) : Ledger :=
  let registration := l.newRegistration? tracks session
  { l.drop name with
    registered := l.registered + registration.toList.length
    live := Function.update l.live name (some ⟨registration, session.closeFailure, false⟩) }

def step (l : Ledger) : Pool.Op → Ledger
  | .connect d connector name url overrides =>
      match d.session? connector url overrides with
      | some session => l.connect d.tracks name session
      | none => l
  | .close name => l.close name
  | .drop name => l.drop name

def run (l : Ledger) (history : List Pool.Op) : Ledger := history.foldl step l

/-! ## One connection under each number -/

variable {l : Ledger} {name : String} {x : Registration}

/-- Every number has been given out, and to one connection only. -/
structure Numbered (l : Ledger) : Prop where
  id_le : ∀ {name x}, l.registration? name = some x → x.id ≤ l.registered
  name_eq : ∀ {m n x y}, l.registration? m = some x → l.registration? n = some y →
    x.id = y.id → m = n

theorem numbered_empty : Numbered {} where
  id_le := by simp [registration?]
  name_eq := by simp [registration?]

theorem Entry.tracked?_eq_some {e : Entry} :
    e.tracked? = some x ↔ e.closed = false ∧ e.registration = some x := by
  rw [Entry.tracked?]
  cases e.closed <;> simp

theorem registration?_of_tracked? (h : l.tracked? name = some x) :
    l.registration? name = some x := by
  obtain ⟨e, he, hx⟩ := Option.bind_eq_some_iff.mp h
  rw [registration?, he]
  exact (Entry.tracked?_eq_some.mp hx).2

theorem Numbered.name_eq_of_tracked? {m n : String} (h : l.Numbered)
    (hm : l.tracked? m = some x) (hn : l.tracked? n = some x) : m = n :=
  h.name_eq (registration?_of_tracked? hm) (registration?_of_tracked? hn) rfl

theorem registration?_update (l : Ledger) (name m : String) (e? : Option Entry)
    (registered : Nat) (abandoned : List Registration) :
    registration? ⟨registered, Function.update l.live name e?, abandoned⟩ m =
      if m = name then e?.bind Entry.registration else l.registration? m := by
  simp only [registration?, Function.update_apply]
  split <;> rfl

theorem tracked?_update (l : Ledger) (name m : String) (e? : Option Entry)
    (registered : Nat) (abandoned : List Registration) :
    tracked? ⟨registered, Function.update l.live name e?, abandoned⟩ m =
      if m = name then e?.bind Entry.tracked? else l.tracked? m := by
  simp only [tracked?, Function.update_apply]
  split <;> rfl

/-- To rewrite what stands under a name is to take out what was tracked under
it and to put in what is tracked now. -/
theorem Numbered.tracked_update (h : l.Numbered) (name : String) (e? : Option Entry)
    (registered : Nat) (abandoned : List Registration) :
    tracked ⟨registered, Function.update l.live name e?, abandoned⟩ =
      (l.tracked \ {x | x ∈ l.tracked? name}) ∪ {x | x ∈ e?.bind Entry.tracked?} := by
  ext x
  constructor
  · rintro ⟨m, hm⟩
    rw [tracked?_update] at hm
    split at hm
    · exact Or.inr hm
    · next hmn => exact Or.inl ⟨⟨m, hm⟩, fun hx => hmn (h.name_eq_of_tracked? hm hx)⟩
  · rintro (⟨⟨m, hm⟩, hx⟩ | hx)
    · have hmn : m ≠ name := fun e => hx (e ▸ hm)
      exact ⟨m, by rw [tracked?_update, if_neg hmn, hm]⟩
    · exact ⟨name, by rw [tracked?_update, if_pos rfl]; exact hx⟩

/-- What stands under a name may be rewritten under its own number or a new one. -/
theorem Numbered.update (h : l.Numbered) {name : String} {e? : Option Entry} {registered : Nat}
    (hle : l.registered ≤ registered)
    (hnew : ∀ x ∈ e?.bind Entry.registration,
      l.registration? name = some x ∨ l.registered < x.id ∧ x.id ≤ registered)
    (abandoned : List Registration) :
    Numbered ⟨registered, Function.update l.live name e?, abandoned⟩ := by
  have hother : ∀ {m x y}, m ≠ name → l.registration? m = some x →
      y ∈ e?.bind Entry.registration → x.id ≠ y.id := by
    intro m x y hm hx hy hid
    rcases hnew y hy with hy | ⟨hlt, _⟩
    · exact hm (h.name_eq hx hy hid)
    · have := h.id_le hx
      omega
  constructor
  · intro m x hx
    rw [registration?_update] at hx
    split at hx
    · rcases hnew x hx with hx | ⟨_, hx⟩
      · exact (h.id_le hx).trans hle
      · exact hx
    · exact (h.id_le hx).trans hle
  · intro m n x y hx hy hid
    rw [registration?_update] at hx hy
    split at hx <;> split at hy
    · next hm hn => rw [hm, hn]
    · next hn => exact absurd hid.symm (hother hn hy hx)
    · next hm _ => exact absurd hid (hother hm hx hy)
    · exact h.name_eq hx hy hid

theorem Numbered.drop (h : l.Numbered) (name : String) : (l.drop name).Numbered :=
  h.update le_rfl (by simp) _

theorem close_of_failure {e : Entry} {cause : String} (he : l.live name = some e)
    (hcause : e.closeFailure = some cause) : l.close name = l := by
  obtain ⟨registration, closeFailure, closed⟩ := e
  obtain rfl : closeFailure = some cause := hcause
  rw [Ledger.close, he]

theorem close_of_success {e : Entry} (he : l.live name = some e) (hnone : e.closeFailure = none) :
    l.close name =
      { l with live := Function.update l.live name (some { e with closed := true }) } := by
  obtain ⟨registration, closeFailure, closed⟩ := e
  obtain rfl : closeFailure = none := hnone
  rw [Ledger.close, he]

theorem Numbered.close (h : l.Numbered) (name : String) : (l.close name).Numbered := by
  rw [Ledger.close]
  split
  · next registration _ he =>
    refine h.update le_rfl (fun x hx => Or.inl ?_) _
    rw [registration?, he]
    exact hx
  · exact h

theorem mem_newRegistration? {tracks : Bool} {session : Session} :
    x ∈ l.newRegistration? tracks session ↔ tracks = true ∧ ∃ socket,
      session.socket = some socket ∧ ⟨l.registered + 1, l.registered + 1, socket⟩ = x := by
  cases tracks <;> simp [newRegistration?]

theorem Numbered.connect (h : l.Numbered) (tracks : Bool) (name : String) (session : Session) :
    (l.connect tracks name session).Numbered := by
  refine h.update (Nat.le_add_right _ _) (fun x hx => Or.inr ?_) _
  have hnew : l.newRegistration? tracks session = some x := hx
  obtain ⟨_, _, _, rfl⟩ := mem_newRegistration?.mp hnew
  rw [hnew]
  exact ⟨Nat.lt_succ_self _, le_rfl⟩

/-- What is new stands under a number of its own. -/
theorem Numbered.tracked_connect (h : l.Numbered) (tracks : Bool) (name : String)
    (session : Session) :
    (l.connect tracks name session).tracked =
      ({x | x ∈ l.newRegistration? tracks session} ∪ l.tracked) \ {x | x ∈ l.tracked? name} := by
  have hupdate : (l.connect tracks name session).tracked =
      (l.tracked \ {x | x ∈ l.tracked? name}) ∪ {x | x ∈ l.newRegistration? tracks session} :=
    h.tracked_update _ _ _ _
  have hnew : ∀ x ∈ l.newRegistration? tracks session, x ∉ l.tracked? name := by
    intro x hx hold
    obtain ⟨_, _, _, rfl⟩ := mem_newRegistration?.mp hx
    have hle := h.id_le (registration?_of_tracked? hold)
    exact Nat.not_succ_le_self _ hle
  rw [hupdate]
  ext x
  constructor
  · rintro (⟨hx, hold⟩ | hx)
    · exact ⟨Or.inr hx, hold⟩
    · exact ⟨Or.inl hx, hnew x hx⟩
  · rintro ⟨hx | hx, hold⟩
    · exact Or.inr hx
    · exact Or.inl ⟨hx, hold⟩

end Ledger

end DbRoute
