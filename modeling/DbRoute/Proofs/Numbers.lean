import DbRoute.Proofs.Text.Numeral
import Mathlib.Data.Nat.Digits.Defs

/-!
# Properties that hold a number

A numeral is one or more digits, perhaps with a plus sign in front, and it writes
the sum of its digits, each times a power of ten. A property that holds a number
is read as what its text writes, blanks around it aside, and every text that writes
no number in range is refused. The digits may be read one after the other and the
bound checked at each of them, since a number that is too large only grows.
-/

namespace DbRoute.Text

variable {bound v w : Nat} {s : List Char}

/-- The number that decimal digits write, the last of them counting once. -/
def decimal (digits : List Char) : Nat :=
  Nat.ofDigits 10 (digits.reverse.map fun c => c.toNat - '0'.toNat)

/-- The text is a numeral of the given value. -/
def IsNumeral (v : Nat) (s : List Char) : Prop :=
  ∃ digits, (s = digits ∨ s = '+' :: digits) ∧ digits ≠ [] ∧
    (∀ c ∈ digits, c.isDigit = true) ∧ decimal digits = v

/-- The text is a numeral of the given value with blanks around it. -/
def IsPadded (v : Nat) (s : List Char) : Prop :=
  ∃ before numeral behind, s = before ++ numeral ++ behind ∧ allBlank before = true ∧
    allBlank behind = true ∧ IsNumeral v numeral

/-! ## What numerals are read as -/

theorem ofDigitChars_eq_decimal (digits : List Char) :
    Nat.ofDigitChars 10 digits 0 = decimal digits := by
  induction digits with
  | nil => rfl
  | cons c digits ih =>
      rw [Nat.ofDigitChars_cons, Nat.ofDigitChars_eq_ofDigitChars_zero, ih, Nat.mul_zero,
        Nat.zero_add, Nat.add_comm, decimal, decimal, List.reverse_cons, List.map_append,
        List.map_singleton, Nat.ofDigits_append, Nat.ofDigits_singleton, List.length_map,
        List.length_reverse]

theorem digitsUpTo?_eq_some_iff :
    digitsUpTo? bound s = some v ↔
      s ≠ [] ∧ (∀ c ∈ s, c.isDigit = true) ∧ decimal s = v ∧ v ≤ bound := by
  rw [digitsUpTo?, numberIn?_ten, ofDigitChars_eq_decimal, Option.ite_none_left_eq_some,
    List.isEmpty_iff, Option.filter_eq_some_iff, Option.ite_none_right_eq_some, List.all_eq_true,
    Option.some_inj, decide_eq_true_eq, and_assoc]

theorem numeralUpTo?_eq_some_iff :
    numeralUpTo? bound s = some v ↔ IsNumeral v s ∧ v ≤ bound := by
  constructor
  · intro h
    unfold numeralUpTo? at h
    split at h
    · obtain ⟨hne, hdigits, hvalue, hle⟩ := digitsUpTo?_eq_some_iff.mp h
      exact ⟨⟨_, Or.inr rfl, hne, hdigits, hvalue⟩, hle⟩
    · obtain ⟨hne, hdigits, hvalue, hle⟩ := digitsUpTo?_eq_some_iff.mp h
      exact ⟨⟨_, Or.inl rfl, hne, hdigits, hvalue⟩, hle⟩
  · rintro ⟨⟨digits, rfl | rfl, hne, hdigits, hvalue⟩, hle⟩
    · unfold numeralUpTo?
      split
      · exact absurd (hdigits '+' List.mem_cons_self) (by decide)
      · exact digitsUpTo?_eq_some_iff.mpr ⟨hne, hdigits, hvalue, hle⟩
    · exact digitsUpTo?_eq_some_iff.mpr ⟨hne, hdigits, hvalue, hle⟩

/-- One sign, any number of zeros, and nothing beyond the bound. -/
example : numeralUpTo? 65535 "+0065535".toList = some 65535 ∧
    numeralUpTo? 65535 "65536".toList = none ∧ numeralUpTo? 65535 "++1".toList = none := by
  decide

/-- A text writes one number at most. -/
theorem IsNumeral.unique (hv : IsNumeral v s) (hw : IsNumeral w s) : v = w := by
  have hreadv := numeralUpTo?_eq_some_iff.mpr ⟨hv, Nat.le_max_left v w⟩
  have hreadw := numeralUpTo?_eq_some_iff.mpr ⟨hw, Nat.le_max_right v w⟩
  exact Option.some.inj (hreadv.symm.trans hreadw)

/-- The decimal text of a number is a numeral of its value. -/
theorem isNumeral_toString (v : Nat) : IsNumeral v (toString v).toList := by
  have hdigits : (toString v).toList = Nat.toDigits 10 v := Nat.toList_repr
  have hread : numeralUpTo? v (Nat.toDigits 10 v) = some v := by
    rw [numeralUpTo?_toDigits, if_pos le_rfl]
  rw [hdigits]
  exact (numeralUpTo?_eq_some_iff.mp hread).1

theorem IsNumeral.trim_eq_self (h : IsNumeral v s) : trim s = s := by
  obtain ⟨digits, hs, _, hdigits, _⟩ := h
  have hsolid : ∀ c ∈ digits, isBlank c = false := fun c hc => isBlank_of_isDigit (hdigits c hc)
  apply trim_eq_self_of_forall
  rcases hs with rfl | rfl
  · exact hsolid
  · exact List.forall_mem_cons.mpr ⟨rfl, hsolid⟩

theorem isNumeral_trim_iff : IsNumeral v (trim s) ↔ IsPadded v s := by
  constructor
  · intro h
    obtain ⟨before, behind, hbefore, hbehind, hs⟩ := exists_blanks_around_trim s
    exact ⟨before, trim s, behind, hs, hbefore, hbehind, h⟩
  · rintro ⟨before, numeral, behind, rfl, hbefore, hbehind, h⟩
    rwa [trim_append_blank _ hbehind, trim_blank_append hbefore, h.trim_eq_self]

/-! ## Reading within the bound -/

/-- The number with one more digit, if it is still in range. -/
def push? (bound n : Nat) (c : Char) : Option Nat :=
  ((digit? 10 c).map (10 * n + ·)).filter (· ≤ bound)

/-- A number that is out of range stays so, whatever digits follow. -/
theorem foldlM_digits_out_of_range {n : Nat} (hn : bound < n) (digits : List Char) :
    (digits.foldlM (fun n c => (digit? 10 c).map (10 * n + ·)) n).filter (· ≤ bound) = none := by
  induction digits generalizing n with
  | nil => simpa using hn
  | cons c digits ih =>
      rw [List.foldlM_cons]
      cases digit? 10 c with
      | none => rfl
      | some d =>
          have hd : bound < 10 * n + d := by omega
          exact ih hd

theorem foldlM_push? {n : Nat} (hn : n ≤ bound) (digits : List Char) :
    digits.foldlM (push? bound) n =
      (digits.foldlM (fun n c => (digit? 10 c).map (10 * n + ·)) n).filter (· ≤ bound) := by
  induction digits generalizing n with
  | nil =>
      rw [List.foldlM_nil, List.foldlM_nil, Option.pure_def, Option.filter_some,
        if_pos (by simpa using hn)]
  | cons c digits ih =>
      rw [List.foldlM_cons, List.foldlM_cons, push?]
      cases digit? 10 c with
      | none => rfl
      | some d =>
          rw [Option.map_some, Option.filter_some]
          by_cases hd : 10 * n + d ≤ bound
          · rw [if_pos (by simpa using hd)]
            exact ih hd
          · -- Here one reader stops, and the other no longer comes back into range.
            rw [if_neg (by simpa using hd)]
            exact (foldlM_digits_out_of_range (Nat.lt_of_not_le hd) digits).symm

theorem digitsUpTo?_eq_foldlM (hs : s ≠ []) :
    digitsUpTo? bound s = s.foldlM (push? bound) 0 := by
  rw [digitsUpTo?, if_neg (by simpa using hs), numberIn?, foldlM_push? (Nat.zero_le bound)]

end DbRoute.Text

namespace DbRoute.Properties

variable {bound : Nat} {key raw : String} {complaint : String → String}
  {outcome : Except Fault Nat} {fault : Fault}

/-- The text of the property is refused, with the whole of it in the complaint. -/
def Refuses (key : String) (complaint : String → String) (raw : String)
    (outcome : Except Fault Nat) : Prop :=
  ∃ fault, outcome = .error fault ∧
    fault.report = (Report.invalidAttribute (complaint raw)).withKey key

/-- What comes of reading the text of a property as a number of at most `bound`. -/
structure ReadsNumber (bound : Nat) (key : String) (complaint : String → String) (raw : String)
    (outcome : Except Fault Nat) : Prop where
  ok_iff : ∀ v, outcome = .ok v ↔ Text.IsNumeral v (Text.trim raw.toList) ∧ v ≤ bound
  malformed : (∀ v, ¬Text.IsNumeral v (Text.trim raw.toList)) → Refuses key complaint raw outcome
  too_large : ∀ v, Text.IsNumeral v (Text.trim raw.toList) → bound < v →
    Refuses key complaint raw outcome
  /-- The decimal text of a number in range is read back, whatever blanks are around it. -/
  reads_back : ∀ v ≤ bound, ∀ before behind, Text.allBlank before = true →
    Text.allBlank behind = true → raw.toList = before ++ (toString v).toList ++ behind →
    outcome = .ok v

theorem number?_eq_some_iff {v : Nat} :
    number? bound raw = some v ↔ Text.IsNumeral v (Text.trim raw.toList) ∧ v ≤ bound :=
  Text.numeralUpTo?_eq_some_iff

theorem readsNumber_of_number? (hok : ∀ v, number? bound raw = some v → outcome = .ok v)
    (herror : number? bound raw = none → Refuses key complaint raw outcome) :
    ReadsNumber bound key complaint raw outcome := by
  have hrefuses : (∀ v, Text.IsNumeral v (Text.trim raw.toList) → bound < v) →
      Refuses key complaint raw outcome := by
    intro h
    apply herror
    rw [Option.eq_none_iff_forall_ne_some]
    intro v hv
    obtain ⟨hnumeral, hle⟩ := number?_eq_some_iff.mp hv
    exact absurd (h v hnumeral) (Nat.not_lt_of_le hle)
  constructor
  · intro v
    rw [← number?_eq_some_iff]
    constructor
    · intro h
      cases hnumber : number? bound raw with
      | none =>
          obtain ⟨fault, hfault, _⟩ := herror hnumber
          cases h.symm.trans hfault
      | some w =>
          have hw := (hok w hnumber).symm.trans h
          rw [Except.ok.inj hw]
    · exact hok v
  · intro h
    exact hrefuses fun v hv => absurd hv (h v)
  · intro v hv hlt
    refine hrefuses fun w hw => ?_
    rwa [← hv.unique hw]
  · intro v hle before behind hbefore hbehind hraw
    have hpadded : Text.IsPadded v raw.toList :=
      ⟨before, _, behind, hraw, hbefore, hbehind, Text.isNumeral_toString v⟩
    exact hok v (number?_eq_some_iff.mpr ⟨Text.isNumeral_trim_iff.mpr hpadded, hle⟩)

theorem readsNumber_port (p : Properties) (raw : String) :
    ReadsNumber maxPort Key.port (fun text => s!"Port '{text}' is not a valid port number") raw
      (p.set Key.port raw).port := by
  have hget : (p.set Key.port raw).get? Key.port = some raw := by rw [get?_set, if_pos rfl]
  apply readsNumber_of_number?
  · intro v hv
    simp only [port, hget, hv]
  · intro hnone
    exact ⟨.portInvalid raw, by simp only [port, hget, hnone], rfl⟩

theorem readsNumber_hostCount (p : Properties) (raw : String) :
    ReadsNumber maxCount Key.hostCount (fun text => s!"Host count '{text}' is not a number") raw
      (p.set Key.hostCount raw).hostCount := by
  have hget : (p.set Key.hostCount raw).get? Key.hostCount = some raw := by
    rw [get?_set, if_pos rfl]
  apply readsNumber_of_number?
  · intro v hv
    simp only [hostCount, hget, hv]
  · intro hnone
    exact ⟨.hostCountInvalid raw, by simp only [hostCount, hget, hnone], rfl⟩

/-- What is read of the properties that hold numbers. Of any text, the port is the
number of at most 16 bits that it writes, and the number of hosts that of at most 64
bits, blanks around the numeral aside; every other text is refused under its key and
quoted as it is. No number wraps, since at no digit does the number read so far leave
its range. -/
theorem numbers_exact (p : Properties) (raw : String) :
    ReadsNumber 65535 Key.port (fun text => s!"Port '{text}' is not a valid port number") raw
      (p.set Key.port raw).port ∧
    ReadsNumber (2 ^ 64 - 1) Key.hostCount (fun text => s!"Host count '{text}' is not a number")
      raw (p.set Key.hostCount raw).hostCount ∧
    (∀ v, Text.IsNumeral v (Text.trim raw.toList) ↔ Text.IsPadded v raw.toList) ∧
    ∀ bound digits, digits ≠ [] →
      Text.digitsUpTo? bound digits = digits.foldlM (Text.push? bound) 0 := by
  refine ⟨readsNumber_port p raw, readsNumber_hostCount p raw, ?_, ?_⟩
  · intro v
    exact Text.isNumeral_trim_iff
  · intro bound digits hne
    exact Text.digitsUpTo?_eq_foldlM hne

/-- The largest port with a sign, zeros and blanks, the first number of hosts that is
too large, and one sign too many. -/
theorem numbers_exact_at_the_limits :
    ((∅ : Properties).set Key.port "\u3000+0065535\n").port = .ok 65535 ∧
    Refuses Key.hostCount (fun text => s!"Host count '{text}' is not a number")
      " 18446744073709551616"
      ((∅ : Properties).set Key.hostCount " 18446744073709551616").hostCount ∧
    Refuses Key.port (fun text => s!"Port '{text}' is not a valid port number") "++1"
      ((∅ : Properties).set Key.port "++1").port ∧
    Text.digitsUpTo? 9 ['1', '0'] = ['1', '0'].foldlM (Text.push? 9) 0 := by
  obtain ⟨hlargest, _⟩ := numbers_exact ∅ "\u3000+0065535\n"
  obtain ⟨_, hbeyond, _⟩ := numbers_exact ∅ " 18446744073709551616"
  obtain ⟨hsigns, _, _, hwithin⟩ := numbers_exact ∅ "++1"
  refine ⟨(hlargest.ok_iff 65535).mpr ⟨?_, le_rfl⟩, hbeyond.too_large (2 ^ 64) ?_ (by decide),
    hsigns.malformed ?_, hwithin 9 _ (by decide)⟩
  · exact ⟨"0065535".toList, Or.inr (by decide), by decide, List.all_eq_true.mp (by decide),
      by decide⟩
  · exact ⟨"18446744073709551616".toList, Or.inl (by decide), by decide,
      List.all_eq_true.mp (by decide), by decide⟩
  · rintro v ⟨digits, hs, _, hdigits, _⟩
    have htrim : Text.trim "++1".toList = ['+', '+', '1'] := by decide
    rw [htrim] at hs
    -- Without the first sign or with it, a sign is left among the digits.
    have hplus : '+' ∈ digits := by
      rcases hs with rfl | hs
      · exact List.mem_cons_self
      · obtain ⟨-, rfl⟩ := List.cons.inj hs
        exact List.mem_cons_self
    exact absurd (hdigits '+' hplus) (by decide)

end DbRoute.Properties
