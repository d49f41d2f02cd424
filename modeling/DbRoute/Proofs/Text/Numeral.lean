import DbRoute.Proofs.Text.Blank
import DbRoute.Settings

/-!
# Numerals

What a text of decimal digits is worth, and that a number in range is read
back from its decimal text.
-/

namespace DbRoute.Text

theorem isDigit_iff {c : Char} : c.isDigit = true ↔ 48 ≤ c.toNat ∧ c.toNat ≤ 57 := by
  simp [Char.isDigit, UInt32.le_iff_toNat_le]

theorem digit?_ten (c : Char) :
    digit? 10 c = if c.isDigit then some (c.toNat - '0'.toNat) else none := by
  have h0 : '0'.toNat = 48 := rfl
  simp only [digit?, isDigit_iff, h0]
  split
  · rw [if_pos (by omega)]
  · split
    · rw [if_neg (by omega)]
    · split <;> rw [if_neg (by omega)]

theorem foldlM_digits (s : List Char) (n : Nat) :
    s.foldlM (fun n c => (digit? 10 c).map (10 * n + ·)) n =
      if s.all Char.isDigit then some (Nat.ofDigitChars 10 s n) else none := by
  induction s generalizing n with
  | nil => rfl
  | cons c s ih =>
      rw [List.foldlM_cons, digit?_ten, List.all_cons]
      cases hc : c.isDigit
      · rfl
      · simp only [if_true, Option.map_some, Option.bind_eq_bind, Option.bind_some, Bool.true_and,
          Nat.ofDigitChars_cons]
        exact ih _

theorem numberIn?_ten (s : List Char) :
    numberIn? 10 s = if s.all Char.isDigit then some (Nat.ofDigitChars 10 s 0) else none :=
  foldlM_digits s 0

/-- All characters of a text that writes a number are digits. -/
theorem exists_digit?_of_mem {base n value : Nat} {digits : List Char}
    (h : digits.foldlM (fun n c => (digit? base c).map (base * n + ·)) value = some n) :
    ∀ c ∈ digits, ∃ d, digit? base c = some d := by
  induction digits generalizing value with
  | nil => exact fun _ hc => absurd hc List.not_mem_nil
  | cons c digits ih =>
      obtain ⟨_, hdigit, h⟩ := Option.bind_eq_some_iff.mp h
      obtain ⟨d, hd, _⟩ := Option.map_eq_some_iff.mp hdigit
      exact List.forall_mem_cons.mpr ⟨⟨d, hd⟩, ih h⟩

/-- A reader that counts digits down, and does something with their number at the last. -/
theorem countDown_digits {α : Type} {base n value : Nat} {digits : List Char}
    (f : Nat → Nat → List Char → Option α) (finish : Nat → List Char → Option α)
    (hstep : ∀ left value c s, f left value (c :: s) =
      match digit? base c with
      | none => none
      | some d =>
          if left ≠ 1 then f (left - 1) (base * value + d) s else finish (base * value + d) s)
    (hne : digits ≠ [])
    (h : digits.foldlM (fun n c => (digit? base c).map (base * n + ·)) value = some n)
    (rest : List Char) : f digits.length value (digits ++ rest) = finish n rest := by
  induction digits generalizing value with
  | nil => exact absurd rfl hne
  | cons c digits ih =>
      obtain ⟨_, hdigit, h⟩ := Option.bind_eq_some_iff.mp h
      obtain ⟨d, hd, rfl⟩ := Option.map_eq_some_iff.mp hdigit
      rw [List.cons_append, hstep, hd]
      dsimp only
      cases digits with
      | nil =>
          cases h
          exact if_neg (by simp)
      | cons next digits =>
          rw [if_pos (by simp), List.length_cons, Nat.add_sub_cancel]
          exact ih (List.cons_ne_nil _ _) h

theorem digitsUpTo?_toDigits (bound n : Nat) :
    digitsUpTo? bound (Nat.toDigits 10 n) = if n ≤ bound then some n else none := by
  have hall : (Nat.toDigits 10 n).all Char.isDigit = true :=
    List.all_eq_true.mpr fun c hc => Nat.isDigit_of_mem_toDigits (by decide) (by decide) hc
  rw [digitsUpTo?, if_neg (by simp [Nat.toDigits_ne_nil]), numberIn?_ten, if_pos hall,
    Nat.ofDigitChars_ten_toDigits, Option.filter_some]
  simp only [decide_eq_true_eq]

theorem numeralUpTo?_toDigits (bound n : Nat) :
    numeralUpTo? bound (Nat.toDigits 10 n) = if n ≤ bound then some n else none := by
  unfold numeralUpTo?
  split
  · -- No decimal text starts with a plus sign.
    next digits hd =>
    have hplus : '+' ∈ Nat.toDigits 10 n := by simp [hd]
    have hdigit : '+'.isDigit = true := Nat.isDigit_of_mem_toDigits (by decide) (by decide) hplus
    exact absurd hdigit (by decide)
  · exact digitsUpTo?_toDigits bound n

theorem isBlank_of_isDigit {c : Char} (h : c.isDigit = true) : isBlank c = false := by
  rw [isDigit_iff] at h
  simp [isBlank]
  omega

end DbRoute.Text

namespace DbRoute.Properties

/-- Of the decimal text of a number nothing but that number is read. -/
theorem number?_toString_eq (bound n : Nat) :
    number? bound (toString n) = if n ≤ bound then some n else none := by
  have hdigits : (toString n).toList = Nat.toDigits 10 n := Nat.toList_repr
  have htrim : Text.trim (Nat.toDigits 10 n) = Nat.toDigits 10 n :=
    Text.trim_eq_self_of_forall fun c hc =>
      Text.isBlank_of_isDigit (Nat.isDigit_of_mem_toDigits (by decide) (by decide) hc)
  rw [number?, hdigits, htrim, Text.numeralUpTo?_toDigits]

/-- A number in range is read back from its decimal text. -/
theorem number?_toString {bound n : Nat} (h : n ≤ bound) : number? bound (toString n) = some n := by
  rw [number?_toString_eq, if_pos h]

end DbRoute.Properties
