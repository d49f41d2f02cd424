import Mathlib.Data.List.Forall2

/-!
# Outcomes

What it takes for a computation that may fail to succeed: each of its parts
succeeds. What follows upon a success matters for successes alone. And it can
fail in no other way than its parts do.
-/

namespace DbRoute.Outcome

variable {ε ε' α β : Type}

theorem bind_eq_ok {x : Except ε α} {f : α → Except ε β} {b : β} :
    (x >>= f) = .ok b ↔ ∃ a, x = .ok a ∧ f a = .ok b := by
  cases x <;> simp [bind, Except.bind]

theorem map_eq_ok {x : Except ε α} {f : α → β} {b : β} :
    x.map f = .ok b ↔ ∃ a, x = .ok a ∧ f a = b := by
  cases x <;> simp [Except.map]

theorem bind_eq_error {x : Except ε α} {f : α → Except ε β} {e : ε} :
    (x >>= f) = .error e ↔ x = .error e ∨ ∃ a, x = .ok a ∧ f a = .error e := by
  cases x <;> simp [bind, Except.bind]

theorem map_eq_error {x : Except ε α} {f : α → β} {e : ε} :
    x.map f = .error e ↔ x = .error e := by
  cases x <;> simp [Except.map]

theorem map_congr_ok {x : Except ε α} {f g : α → β} (h : ∀ a, x = .ok a → f a = g a) :
    x.map f = x.map g := by
  cases x with
  | error e => rfl
  | ok a => exact congrArg Except.ok (h a rfl)

theorem map_mapError (x : Except ε α) (f : ε → ε') (g : α → β) :
    (x.mapError f).map g = (x.map g).mapError f := by
  cases x <;> rfl

theorem map_map {γ : Type} (x : Except ε α) (f : α → β) (g : β → γ) :
    (x.map f).map g = x.map fun a => g (f a) := by
  cases x <;> rfl

theorem map_bind {γ : Type} (x : Except ε α) (f : α → Except ε β) (g : β → γ) :
    (x >>= f).map g = x >>= fun a => (f a).map g := by
  cases x <;> rfl

section

variable {γ : Type} {x y : Except ε α} {f : α → γ}

/-- Computations of which `f` shows the same agree in all that depends on no more. -/
theorem map_eq_map_of_agree {g k : α → β} (h : x.map f = y.map f)
    (hok : ∀ a b, x = .ok a → y = .ok b → f a = f b → g a = k b) : x.map g = y.map k := by
  cases x with
  | error e =>
      cases y with
      | error e' =>
          cases h
          rfl
      | ok b => cases h
  | ok a =>
      cases y with
      | error e => cases h
      | ok b => exact congrArg Except.ok (hok a b rfl rfl (Except.ok.inj h))

theorem bind_eq_bind_of_agree {g k : α → Except ε β} (h : x.map f = y.map f)
    (hok : ∀ a b, f a = f b → g a = k b) : x >>= g = y >>= k := by
  have hjoin : ∀ (z : Except ε α) (g : α → Except ε β), z >>= g = z.map g >>= id := by
    intro z g
    cases z <;> rfl
  rw [hjoin, hjoin, map_eq_map_of_agree h fun a b _ _ => hok a b]

end

theorem mapError_eq_ok {x : Except ε α} {f : ε → ε'} {a : α} :
    x.mapError f = .ok a ↔ x = .ok a := by
  cases x <;> simp [Except.mapError]

/-- What holds throughout one of two related lists may carry over to the other. -/
theorem forall_right {R : α → β → Prop} {P : α → Prop} {Q : β → Prop} {xs : List α}
    {ys : List β} (h : List.Forall₂ R xs ys) (hxs : ∀ x ∈ xs, P x)
    (himp : ∀ x y, R x y → P x → Q y) : ∀ y ∈ ys, Q y := by
  induction h with
  | nil => exact fun _ hy => absurd hy List.not_mem_nil
  | cons hxy _ ih =>
      obtain ⟨hx, hxs⟩ := List.forall_mem_cons.mp hxs
      exact List.forall_mem_cons.mpr ⟨himp _ _ hxy hx, ih hxs⟩

theorem mapM_eq_ok {f : α → Except ε β} {xs : List α} {ys : List β} :
    xs.mapM f = .ok ys ↔ List.Forall₂ (fun x y => f x = .ok y) xs ys := by
  induction xs generalizing ys with
  | nil =>
      constructor
      · rintro ⟨⟩
        exact .nil
      · rintro ⟨⟩
        rfl
  | cons x xs ih =>
      rw [List.mapM_cons, bind_eq_ok]
      constructor
      · rintro ⟨y, hy, h⟩
        obtain ⟨ys, hys, ⟨⟩⟩ := bind_eq_ok.mp h
        exact .cons hy (ih.mp hys)
      · rintro (_ | ⟨hy, hys⟩)
        exact ⟨_, hy, bind_eq_ok.mpr ⟨_, ih.mpr hys, rfl⟩⟩

/-! ## The first failure of a list -/

/-- The first of the elements that have a property. -/
inductive First (P : α → Prop) : List α → α → Prop
  | here {x : α} {xs : List α} : P x → First P (x :: xs) x
  | later {x y : α} {xs : List α} : ¬P x → First P xs y → First P (x :: xs) y

namespace First

variable {P Q : α → Prop} {xs : List α} {x : α}

theorem congr (hiff : ∀ x, P x ↔ Q x) (h : First P xs x) : First Q xs x := by
  induction h with
  | here hx => exact .here ((hiff _).mp hx)
  | later hx _ ih => exact .later (fun hq => hx ((hiff _).mpr hq)) ih

theorem holds (h : First P xs x) : x ∈ xs ∧ P x := by
  induction h with
  | here hx => exact ⟨List.mem_cons_self, hx⟩
  | later _ _ ih => exact ⟨List.mem_cons_of_mem _ ih.1, ih.2⟩

theorem exists_iff : (∃ x, First P xs x) ↔ ∃ x ∈ xs, P x := by
  constructor
  · rintro ⟨x, hx⟩
    exact ⟨x, hx.holds⟩
  · rintro ⟨x, hmem, hx⟩
    induction xs with
    | nil => exact absurd hmem List.not_mem_nil
    | cons y ys ih =>
        by_cases hy : P y
        · exact ⟨y, .here hy⟩
        · rcases List.mem_cons.mp hmem with rfl | hmem
          · exact absurd hx hy
          · obtain ⟨z, hz⟩ := ih hmem
            exact ⟨z, .later hy hz⟩

/-- Of two related lists the first elements of a kind are related too. -/
theorem forall₂ {β : Type} {R : α → β → Prop} {Q : β → Prop} {ys : List β} (h : First P xs x)
    (hall : List.Forall₂ R xs ys) (hiff : ∀ x y, R x y → (P x ↔ Q y)) :
    ∃ y, First Q ys y ∧ R x y := by
  induction h generalizing ys with
  | here hx =>
      cases hall with
      | cons hxy _ => exact ⟨_, .here ((hiff _ _ hxy).mp hx), hxy⟩
  | later hx _ ih =>
      cases hall with
      | cons hxy hall =>
          obtain ⟨y, hy, hR⟩ := ih hall
          exact ⟨y, .later (fun hQ => hx ((hiff _ _ hxy).mpr hQ)) hy, hR⟩

end First

/-- The computations of a list end with the first of them that fails. -/
theorem mapM_eq_error {f : α → Except ε β} {xs : List α} {e : ε} :
    xs.mapM f = .error e ↔ ∃ x, First (fun x => ∃ e, f x = .error e) xs x ∧ f x = .error e := by
  induction xs with
  | nil =>
      constructor
      · rintro ⟨⟩
      · rintro ⟨x, hx, _⟩
        cases hx
  | cons x xs ih =>
      rw [List.mapM_cons, bind_eq_error]
      constructor
      · rintro (hx | ⟨y, hy, h⟩)
        · exact ⟨x, .here ⟨e, hx⟩, hx⟩
        · rcases bind_eq_error.mp h with hxs | ⟨_, _, hpure⟩
          · obtain ⟨z, hz, hfz⟩ := ih.mp hxs
            refine ⟨z, .later ?_ hz, hfz⟩
            rintro ⟨e', he'⟩
            cases hy.symm.trans he'
          · cases hpure
      · rintro ⟨z, hz, hfz⟩
        cases hz with
        | here _ => exact Or.inl hfz
        | later hx hz =>
            cases hfx : f x with
            | error e' => exact absurd ⟨e', hfx⟩ hx
            | ok y => exact Or.inr ⟨y, rfl, bind_eq_error.mpr (Or.inl (ih.mpr ⟨z, hz, hfz⟩))⟩

/-! ## How a computation may fail -/

/-- Every fault of the computation is of this kind. -/
def FailsAs (P : ε → Prop) (x : Except ε α) : Prop := ∀ e, x = .error e → P e

namespace FailsAs

variable {P Q : ε → Prop} {x : Except ε α}

theorem ok (a : α) : FailsAs P (.ok a : Except ε α) := fun _ h => nomatch h

theorem error {e : ε} (h : P e) : FailsAs P (.error e : Except ε α) := by
  rintro _ ⟨⟩
  exact h

theorem mono (h : FailsAs P x) (hsub : ∀ e, P e → Q e) : FailsAs Q x :=
  fun e he => hsub e (h e he)

theorem bind {f : α → Except ε β} (hx : FailsAs P x) (hf : ∀ a, FailsAs P (f a)) :
    FailsAs P (x >>= f) := by
  intro e h
  rcases bind_eq_error.mp h with h | ⟨a, _, h⟩
  · exact hx e h
  · exact hf a e h

theorem map (f : α → β) (hx : FailsAs P x) : FailsAs P (x.map f) :=
  fun e h => hx e (map_eq_error.mp h)

theorem mapError {P : ε' → Prop} {g : ε → ε'} (hg : ∀ e, P (g e)) (x : Except ε α) :
    FailsAs P (x.mapError g) := by
  cases x with
  | error e => exact .error (hg e)
  | ok a => exact .ok a

theorem mapM {f : α → Except ε β} (hf : ∀ a, FailsAs P (f a)) (xs : List α) :
    FailsAs P (xs.mapM f) := by
  induction xs with
  | nil => exact .ok []
  | cons x xs ih =>
      rw [List.mapM_cons]
      exact (hf x).bind fun _ => ih.bind fun _ => .ok _

theorem foldlM {f : β → α → Except ε β} (hf : ∀ b a, FailsAs P (f b a)) (xs : List α) (b : β) :
    FailsAs P (xs.foldlM f b) := by
  induction xs generalizing b with
  | nil => exact .ok b
  | cons x xs ih =>
      rw [List.foldlM_cons]
      exact (hf b x).bind fun b => ih b

end FailsAs

end DbRoute.Outcome
