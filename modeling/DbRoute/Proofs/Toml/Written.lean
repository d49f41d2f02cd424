import DbRoute.Proofs.Toml.Value
import Mathlib.Data.List.Forall2

/-!
# Keys and scalars as they are written

A key is written bare, or between marks of either kind; a string between double marks,
each of its characters as it is or escaped; an integer in base 10; and a truth value as a
word. Each of them is read back from its text, whatever ends it.
-/

namespace DbRoute.Toml

variable {s t rest digits : List Char} {c : Char} {n : Nat}

theorem takeWhile_eq_nil {p : Char → Bool} (h : ∀ c ∈ s.head?, p c = false) :
    s.takeWhile p = [] := by
  cases s with
  | nil => rfl
  | cons c s => exact List.takeWhile_cons_of_neg (by simp [h c rfl])

theorem dropWhile_eq_self {p : Char → Bool} (h : ∀ c ∈ s.head?, p c = false) :
    s.dropWhile p = s := by
  cases s with
  | nil => rfl
  | cons c s => exact List.dropWhile_cons_of_neg (by simp [h c rfl])

/-! ## Strings -/

/-- The letters behind a backslash, each with the character for which it stands. -/
def shortForms : List (Char × Char) :=
  [('"', '"'), ('\\', '\\'), ('b', '\x08'), ('f', '\x0C'), ('n', '\n'), ('r', '\r'), ('t', '\t')]

/-- The ways to write one character inside a string. -/
inductive Spells : List Char → Char → Prop
  | itself {c : Char} : isPlain c = true → c ≠ '"' → c ≠ '\\' → Spells [c] c
  | short {letter c : Char} : (letter, c) ∈ shortForms → Spells ['\\', letter] c
  | code {mark : Char} {digits : List Char} {n : Nat} :
      (mark, digits.length) ∈ [('u', 4), ('U', 8)] → Text.numberIn? 16 digits = some n →
      n.isValidChar → Spells ('\\' :: mark :: digits) (Char.ofNat n)

/-- A string on one line between double marks, each of its characters written in some way. -/
structure WrittenString where
  pieces : List (List Char)
  value : String
  spelled : List.Forall₂ Spells pieces value.toList

namespace WrittenString

def text (w : WrittenString) : List Char := '"' :: w.pieces.flatten ++ ['"']

end WrittenString

theorem shortEscape?_of_mem {letter : Char} (h : (letter, c) ∈ shortForms) :
    letter ≠ 'u' ∧ letter ≠ 'U' ∧ shortEscape? letter = some c := by
  have hall : ∀ form ∈ shortForms,
      form.1 ≠ 'u' ∧ form.1 ≠ 'U' ∧ shortEscape? form.1 = some form.2 := by decide
  exact hall _ h

/-- However a character is written, it is read as itself. -/
theorem Spells.readBasic? (h : Spells t c) (rest : List Char) :
    readBasic? false .plain (t ++ rest) =
      (readBasic? false .plain rest).map fun r => (c :: r.1, r.2) := by
  cases h with
  | itself hplain hmark hslash =>
      rw [List.singleton_append, readBasic?_text (.inl rfl), if_neg (by simp), if_neg hmark,
        if_neg hslash, if_pos (by simp [hplain])]
  | @short letter _ hmem =>
      obtain ⟨hu, hU, hshort⟩ := shortEscape?_of_mem hmem
      have hslash : Toml.readBasic? false .plain ('\\' :: letter :: rest) =
          Toml.readBasic? false .letter (letter :: rest) := by
        rw [readBasic?_text (.inl rfl)]
        rfl
      rw [List.cons_append, List.cons_append, List.nil_append, hslash, Toml.readBasic?, if_neg hu,
        if_neg hU, hshort]
      rfl
  | @code mark digits n hmark hnumber hvalid =>
      have hne : digits ≠ [] := by
        rintro rfl
        simp at hmark
      have hdigits := Text.countDown_digits
        (fun left value => Toml.readBasic? false (.digit left value))
        (fun n rest =>
          if n.isValidChar then
            (Toml.readBasic? false .plain rest).map fun r => (Char.ofNat n :: r.1, r.2)
          else none)
        (fun _ _ _ _ => rfl) hne hnumber rest
      have hslash : Toml.readBasic? false .plain ('\\' :: mark :: (digits ++ rest)) =
          Toml.readBasic? false (.digit digits.length 0) (digits ++ rest) := by
        rw [readBasic?_text (.inl rfl)]
        simp only [List.mem_cons, List.not_mem_nil, or_false, Prod.mk.injEq] at hmark
        rcases hmark with ⟨rfl, hlength⟩ | ⟨rfl, hlength⟩ <;> rw [hlength] <;> rfl
      rw [List.cons_append, List.cons_append, hslash, hdigits, if_pos hvalid]

theorem Spells.exists_eq_cons (h : Spells t c) : ∃ d s, t = d :: s ∧ d ≠ '"' := by
  cases h with
  | itself _ hmark _ => exact ⟨_, _, rfl, hmark⟩
  | short _ => exact ⟨_, _, rfl, by decide⟩
  | code _ _ _ => exact ⟨_, _, rfl, by decide⟩

theorem readBasic?_spelled {pieces : List (List Char)} (h : List.Forall₂ Spells pieces s)
    (rest : List Char) :
    readBasic? false .plain (pieces.flatten ++ '"' :: rest) = some (s, rest) := by
  induction h with
  | nil => rfl
  | cons hspells _ ih =>
      rw [List.flatten_cons, List.append_assoc, hspells.readBasic?, ih]
      rfl

/-- No string of one line opens with three marks: the second one is escaped or the last. -/
theorem startsTwice_spelled {pieces : List (List Char)} (h : List.Forall₂ Spells pieces s)
    (hrest : ∀ c ∈ rest.head?, c ≠ '"') :
    startsTwice '"' (pieces.flatten ++ '"' :: rest) = false := by
  cases h with
  | nil =>
      cases rest with
      | nil => rfl
      | cons c rest => simpa [startsTwice] using hrest c rfl
  | cons hspells _ =>
      obtain ⟨d, s, rfl, hd⟩ := hspells.exists_eq_cons
      simp [startsTwice, hd]

namespace WrittenString

variable (w : WrittenString)

theorem readQuotedLine?_text (rest : List Char) :
    readQuotedLine? (w.text ++ rest) = some (w.value.toList, rest) := by
  have hread := readBasic?_spelled w.spelled rest
  simp only [text, List.cons_append, List.append_assoc, List.nil_append, readQuotedLine?, hread]

theorem readQuoted?_text (hrest : ∀ c ∈ rest.head?, c ≠ '"') :
    readQuoted? (w.text ++ rest) = some (w.value.toList, rest) := by
  have hread := readBasic?_spelled w.spelled rest
  have honce := startsTwice_spelled w.spelled hrest
  simp only [text, List.cons_append, List.append_assoc, List.nil_append, readQuoted?, honce, hread]
  rfl

end WrittenString

/-- A character as it is if that will do, and else escaped. -/
def escape (c : Char) : List Char :=
  if c = '"' ∨ c = '\\' then ['\\', c]
  else if isPlain c then [c]
  else ['\\', 'u', '0', '0', Nat.digitChar (c.toNat / 16), Nat.digitChar (c.toNat % 16)]

theorem spells_escape (c : Char) : Spells (escape c) c := by
  unfold escape
  split_ifs with hmark hplain
  · rcases hmark with rfl | rfl
    · exact .short (by decide)
    · exact .short (by decide)
  · exact .itself hplain (not_or.mp hmark).1 (not_or.mp hmark).2
  · have hcontrol : c.toNat < 0x80 := by
      simp only [isPlain, Bool.or_eq_true, Bool.and_eq_true, decide_eq_true_eq] at hplain
      omega
    have hdigits : ∀ n < 0x80, Text.numberIn? 16
        ['0', '0', Nat.digitChar (n / 16), Nat.digitChar (n % 16)] = some n := by decide
    have hvalid : c.toNat.isValidChar := .inl (by omega)
    have hspells : Spells _ (Char.ofNat c.toNat) :=
      .code (List.mem_cons_self) (hdigits _ hcontrol) hvalid
    rwa [Char.ofNat_toNat] at hspells

/-- Every string can be written. -/
def WrittenString.ofValue (value : String) : WrittenString where
  pieces := value.toList.map escape
  value := value
  spelled := by
    rw [List.forall₂_map_left_iff, List.forall₂_same]
    exact fun c _ => spells_escape c

/-! ## Keys -/

/-- The ways to write a key of one part. -/
inductive WrittenKey where
  | bare (name : String) (ne_empty : name ≠ "") (free : ∀ c ∈ name.toList, isBare c = true)
  | basic (name : WrittenString)
  | literal (name : String) (free : ∀ c ∈ name.toList, isPlain c = true ∧ c ≠ '\'')

namespace WrittenKey

def name : WrittenKey → String
  | bare name _ _ => name
  | basic name => name.value
  | literal name _ => name

def text : WrittenKey → List Char
  | bare name _ _ => name.toList
  | basic name => name.text
  | literal name _ => '\'' :: name.toList ++ ['\'']

/-- The first character of a key tells it from all else that may begin a line, and from the
end of a table. -/
theorem exists_text_eq_cons (k : WrittenKey) :
    ∃ c s, k.text = c :: s ∧ c ∉ [' ', '\t', '#', '\n', '[', '\uFEFF', '}'] := by
  cases k with
  | bare name ne_empty free =>
      have hne : name.toList ≠ [] := fun h => ne_empty (String.toList_eq_nil_iff.mp h)
      obtain ⟨c, s, hname⟩ := List.exists_cons_of_ne_nil hne
      have hall : ∀ c ∈ [' ', '\t', '#', '\n', '[', '\uFEFF', '}'], isBare c = false := by decide
      refine ⟨c, s, hname, fun hmem => ?_⟩
      have hbare := free c (by simp [hname])
      rw [hall c hmem] at hbare
      cases hbare
  | basic name => exact ⟨_, _, rfl, by decide⟩
  | literal name free => exact ⟨_, _, rfl, by decide⟩

theorem readKeyPart?_text (k : WrittenKey) (hrest : ∀ c ∈ rest.head?, isBare c = false) :
    readKeyPart? (k.text ++ rest) = some (k.name, rest) := by
  have hpart : ∀ {x : List Char}, String.ofList x = k.name →
      (readQuotedLine? (k.text ++ rest) <|> readBare? (k.text ++ rest)) = some (x, rest) →
      readKeyPart? (k.text ++ rest) = some (k.name, rest) := by
    intro x hname hread
    rw [readKeyPart?, hread, ← hname]
    rfl
  cases k with
  | bare name ne_empty free =>
      have hne : name.toList ≠ [] := fun h => ne_empty (String.toList_eq_nil_iff.mp h)
      obtain ⟨c, s, hname⟩ := List.exists_cons_of_ne_nil hne
      have hquoted : readQuotedLine? (name.toList ++ rest) = none := by
        rw [hname]
        exact readQuotedLine?_eq_none (ne_mark_of_isBare (free c (by simp [hname]))) _
      have hbare : readBare? (name.toList ++ rest) = some (name.toList, rest) := by
        rw [readBare?, List.takeWhile_append_of_pos free, List.dropWhile_append_of_pos free,
          takeWhile_eq_nil hrest, dropWhile_eq_self hrest, List.append_nil]
        exact if_neg (by simpa using ne_empty)
      refine hpart (String.ofList_toList) ?_
      rw [text, hquoted, hbare]
      rfl
  | basic name =>
      refine hpart (String.ofList_toList) ?_
      rw [text, name.readQuotedLine?_text]
      rfl
  | literal name free =>
      have hread : ∀ s : List Char, (∀ c ∈ s, isPlain c = true ∧ c ≠ '\'') →
          readLiteral? false (s ++ '\'' :: rest) = some (s, rest) := by
        intro s hs
        induction s with
        | nil => rfl
        | cons c s ih =>
            obtain ⟨⟨hplain, hc⟩, hs⟩ := List.forall_mem_cons.mp hs
            rw [List.cons_append, readLiteral?_cons, if_neg hc, if_pos (by simp [hplain]), ih hs]
            rfl
      refine hpart (String.ofList_toList) ?_
      simp only [text, List.cons_append, List.append_assoc, List.nil_append, readQuotedLine?,
        hread _ free]
      rfl

end WrittenKey

/-! ## Scalars -/

/-- A string, an integer of 64 bits, or a truth value. -/
inductive WrittenScalar where
  | string (value : WrittenString)
  | integer (value : Int) (low : -0x8000000000000000 ≤ value) (high : value < 0x8000000000000000)
  | boolean (value : Bool)

namespace WrittenScalar

def text : WrittenScalar → List Char
  | string w => w.text
  | integer value _ _ => (toString value).toList
  | boolean true => "true".toList
  | boolean false => "false".toList

/-- The scalar as it is read. -/
def scalar : WrittenScalar → Scalar
  | string w => .string w.value
  | integer value _ _ => .integer value
  | boolean value => .boolean value

end WrittenScalar

/-- Spaces, a comment, the end of the line or that of the text, or what stands behind a value
in an array or a table in braces. -/
def Ends (rest : List Char) : Prop := ∀ c ∈ rest.head?, c ∈ [' ', '\t', '#', '\n', ',', ']', '}']

/-- Nothing that ends a value goes on with a number, a date or a time. -/
theorem Ends.ne_mark (h : Ends rest) : ∀ c ∈ rest.head?, c.isDigit = false ∧
    c ∉ ['-', ':', '.', 'e', 'E', '_', 'x', 'o', 'b', '"'] := by
  intro c hc
  have hall : ∀ c ∈ [' ', '\t', '#', '\n', ',', ']', '}'], c.isDigit = false ∧
      c ∉ ['-', ':', '.', 'e', 'E', '_', 'x', 'o', 'b', '"'] := by decide
  exact hall c (h c hc)

theorem readFixed?_eq_some {count : Nat} (h : readFixed? count s = some (n, rest)) :
    ∃ digits, s = digits ++ rest ∧ ∀ c ∈ digits, c.isDigit = true := by
  unfold readFixed? at h
  split at h
  · cases h
  · obtain ⟨m, hnumber, heq⟩ := Option.map_eq_some_iff.mp h
    cases heq
    refine ⟨s.take count, (List.take_append_drop count s).symm, ?_⟩
    rw [Text.numberIn?_ten] at hnumber
    exact List.all_eq_true.mp (Option.ite_none_right_eq_some.mp hnumber).1

/-- Behind digits that are all there is, no mark of a date or time follows. -/
theorem readChar?_of_readFixed? {count : Nat} {d : Char} {left : List Char}
    (hdigits : ∀ c ∈ digits, c.isDigit = true) (hrest : Ends rest) (hd : d ∈ ['-', ':'])
    (h : readFixed? count (digits ++ rest) = some (n, left)) : readChar? d left = none := by
  have hne : ∀ c ∈ left.head?, c ≠ d := by
    have hmark : ∀ c, c.isDigit = true → c ≠ d := by
      rintro c hc rfl
      have hall : ∀ c ∈ ['-', ':'], c.isDigit = false := by decide
      exact absurd hc (by rw [hall c hd]; decide)
    have hstop : ∀ c ∈ rest.head?, c ≠ d := by
      rintro c hc rfl
      have hall : ∀ c ∈ ['-', ':'], c ∈ ['-', ':', '.', 'e', 'E', '_', 'x', 'o', 'b', '"'] := by
        decide
      exact (hrest.ne_mark c hc).2 (hall c hd)
    obtain ⟨taken, heq, htaken⟩ := readFixed?_eq_some h
    rcases List.append_eq_append_iff.mp heq with ⟨more, rfl, rfl⟩ | ⟨more, rfl, rfl⟩
    · -- All digits are taken, so what is left begins behind them.
      cases more with
      | nil => exact hstop
      | cons c more =>
          have hdigit := htaken c (by simp)
          rw [(hrest.ne_mark c rfl).1] at hdigit
          cases hdigit
    · cases more with
      | nil => exact hstop
      | cons c more =>
          intro x hx
          obtain rfl := Option.some.inj hx
          exact hmark c (hdigits c (by simp))
  cases left with
  | nil => rfl
  | cons c left => exact if_neg (hne c rfl)

theorem readDateTime?_digits (hdigits : ∀ c ∈ digits, c.isDigit = true) (hrest : Ends rest) :
    readDateTime? (digits ++ rest) = none := by
  have hdate : readDate? (digits ++ rest) = none := by
    unfold readDate?
    cases hyear : readFixed? 4 (digits ++ rest) with
    | none => rfl
    | some r =>
        have hmark := readChar?_of_readFixed? hdigits hrest (d := '-') (by decide) hyear
        simp [hmark]
  have htime : readTime? (digits ++ rest) = none := by
    unfold readTime?
    cases hhour : readFixed? 2 (digits ++ rest) with
    | none => rfl
    | some r =>
        have hmark := readChar?_of_readFixed? hdigits hrest (d := ':') (by decide) hhour
        simp [hmark]
  rw [readDateTime?, hdate, htime]
  rfl

/-- The digits that write a number in base 10, without a zero in front of others. -/
structure Decimal (digits : List Char) (n : Nat) : Prop where
  isDigit : ∀ c ∈ digits, c.isDigit = true
  number : Text.numberIn? 10 digits = some n
  head : ∃ c s, digits = c :: s ∧ (c = '0' → s = [])

theorem exists_toDigits_eq_cons (n : Nat) :
    ∃ c s, Nat.toDigits 10 n = c :: s ∧ (c = '0' → n = 0) := by
  induction n using Nat.strongRecOn with
  | ind n ih =>
      by_cases hn : n < 10
      · have hzero : ∀ n < 10, Nat.digitChar n = '0' → n = 0 := by decide
        exact ⟨_, [], Nat.toDigits_of_lt_base hn, hzero n hn⟩
      · obtain ⟨c, s, hdigits, hc⟩ := ih (n / 10) (by omega)
        refine ⟨c, s ++ [(n % 10).digitChar], ?_, fun hzero => ?_⟩
        · rw [Nat.toDigits_of_base_le (by decide) (by omega), hdigits, List.cons_append]
        · have := hc hzero
          omega

theorem decimal_toDigits (n : Nat) : Decimal (Nat.toDigits 10 n) n := by
  have hdigit : ∀ c ∈ Nat.toDigits 10 n, c.isDigit = true := fun c hc =>
    Nat.isDigit_of_mem_toDigits (by decide) (by decide) hc
  refine ⟨hdigit, ?_, ?_⟩
  · rw [Text.numberIn?_ten, if_pos (List.all_eq_true.mpr hdigit), Nat.ofDigitChars_ten_toDigits]
  · obtain ⟨c, s, hdigits, hc⟩ := exists_toDigits_eq_cons n
    refine ⟨c, s, hdigits, fun hzero => ?_⟩
    obtain rfl := hc hzero
    exact (List.cons.inj hdigits).2.symm

theorem moreDigits_append (hdigits : ∀ c ∈ digits, c.isDigit = true) (hrest : Ends rest) :
    moreDigits 10 (digits ++ rest) = (digits, rest) := by
  induction digits with
  | nil =>
      cases rest with
      | nil => rfl
      | cons c rest =>
          obtain ⟨hdigit, hmark⟩ := hrest.ne_mark c rfl
          have hten : Text.digit? 10 c = none := by rw [Text.digit?_ten, hdigit]; rfl
          have hc : c ≠ '_' := by rintro rfl; exact hmark (by decide)
          exact moreDigits_of_not_digit hten hc rest
  | cons c digits ih =>
      obtain ⟨hc, hdigits⟩ := List.forall_mem_cons.mp hdigits
      have hten : (Text.digit? 10 c).isSome := by rw [Text.digit?_ten, hc]; rfl
      rw [List.cons_append, moreDigits_of_digit hten, ih hdigits]

/-- A minus sign or nothing. -/
def signText (negative : Bool) : List Char := if negative then ['-'] else []

namespace Decimal

variable (h : Decimal digits n) (hrest : Ends rest) (negative : Bool)
include h

theorem exists_eq_cons : ∃ c s, digits = c :: s ∧ c.isDigit = true ∧ (c = '0' → s = []) := by
  obtain ⟨c, s, rfl, hc⟩ := h.head
  exact ⟨c, s, rfl, h.isDigit c (by simp), hc⟩

theorem readSign_signText (t : List Char) :
    readSign (signText negative ++ (digits ++ t)) = (negative, digits ++ t) := by
  obtain ⟨c, s, rfl, hc, _⟩ := h.exists_eq_cons
  have hsign : c ≠ '-' ∧ c ≠ '+' := by
    constructor <;> rintro rfl <;> exact absurd hc (by decide)
  cases negative with
  | true => rfl
  | false => simp [signText, readSign, hsign]

include hrest

theorem readWhole?_append : readWhole? (digits ++ rest) = some (digits, rest) := by
  obtain ⟨c, s, rfl, hc, hzero⟩ := h.exists_eq_cons
  by_cases hfirst : c = '0'
  · obtain rfl := hzero hfirst
    rw [hfirst]
    rfl
  · have hten : (Text.digit? 10 c).isSome := by rw [Text.digit?_ten, hc]; rfl
    have hmore := moreDigits_append (fun d hd => h.isDigit d (List.mem_cons_of_mem _ hd)) hrest
    simp [readWhole?, hfirst, readDigits?, hten, hmore]

theorem readFloat?_eq_none : readFloat? (signText negative ++ (digits ++ rest)) = none := by
  have htail : readFloatTail? rest = none := by
    cases rest with
    | nil => rfl
    | cons c rest =>
        have hmark := (hrest.ne_mark c rfl).2
        have hc : c ≠ '.' ∧ ¬(c = 'e' ∨ c = 'E') := by
          simp only [List.mem_cons, not_or] at hmark ⊢
          tauto
        simp [readFloatTail?, readFraction?, readExponent?, hc]
  have hdecimal : readDecimalFloat? (signText negative ++ (digits ++ rest)) = none := by
    simp [readDecimalFloat?, h.readSign_signText, h.readWhole?_append hrest, htail]
  have hspecial : readSpecialFloat? (signText negative ++ (digits ++ rest)) = none := by
    rw [readSpecialFloat?, h.readSign_signText]
    obtain ⟨c, s, rfl, hc, _⟩ := h.exists_eq_cons
    have hletter : c ≠ 'i' ∧ c ≠ 'n' := by
      constructor <;> rintro rfl <;> exact absurd hc (by decide)
    simp [hletter]
  rw [readFloat?, hdecimal, hspecial]
  rfl

theorem readDateTime?_eq_none : readDateTime? (signText negative ++ (digits ++ rest)) = none := by
  cases negative with
  | false =>
      rw [signText, if_neg (by decide), List.nil_append]
      exact readDateTime?_digits h.isDigit hrest
  | true =>
      have hnone : ∀ count ≠ 0, readFixed? count ('-' :: (digits ++ rest)) = none :=
        fun count hcount => readFixed?_eq_none hcount (by decide) _
      rw [signText, if_pos rfl, List.singleton_append, readDateTime?, readDate?, readTime?,
        hnone 4 (by decide), hnone 2 (by decide)]
      rfl

theorem readInteger?_append :
    readInteger? (signText negative ++ (digits ++ rest)) =
      (int64? negative n).map fun value => (value, rest) := by
  have hdecimal : readInteger? (signText negative ++ (digits ++ rest)) =
      readDecimal? (signText negative ++ (digits ++ rest)) := by
    cases negative with
    | true => exact readInteger?_eq_readDecimal? (.inl (by decide))
    | false =>
        obtain ⟨c, s, rfl, _, hzero⟩ := h.exists_eq_cons
        refine readInteger?_eq_readDecimal? (or_iff_not_imp_left.mpr fun hc => ?_)
        obtain rfl := hzero (not_not.mp hc)
        intro d hd
        have hmark := (hrest.ne_mark d hd).2
        simp only [List.mem_cons, not_or] at hmark ⊢
        tauto
  rw [hdecimal, readDecimal?, h.readSign_signText]
  simp [h.readWhole?_append hrest, h.number]
  cases int64? negative n <;> rfl

end Decimal

theorem toList_toString (value : Int) :
    (toString value).toList = signText (decide (value < 0)) ++ Nat.toDigits 10 value.natAbs := by
  cases value with
  | ofNat n => exact Nat.toList_repr
  | negSucc n =>
      have htext : toString (Int.negSucc n) = "-" ++ toString (n + 1) := rfl
      have hnegative : decide (Int.negSucc n < 0) = true := by
        simp [Int.negSucc_lt_zero]
      rw [htext, hnegative, String.toList_append]
      exact congrArg ('-' :: ·) Nat.toList_repr

/-- An integer begins with its sign or with a digit. -/
theorem exists_toString_eq_cons (value : Int) :
    ∃ c s, (toString value).toList = c :: s ∧ (c = '-' ∨ c.isDigit = true) := by
  rw [toList_toString]
  obtain ⟨c, s, hdigits, hdigit, _⟩ := (decimal_toDigits value.natAbs).exists_eq_cons
  rw [hdigits]
  cases decide (value < 0) with
  | true => exact ⟨'-', _, rfl, .inl rfl⟩
  | false => exact ⟨c, s, rfl, .inr hdigit⟩

theorem readNumberLike?_integer {value : Int} (low : -0x8000000000000000 ≤ value)
    (high : value < 0x8000000000000000) (hrest : Ends rest) :
    readNumberLike? ((toString value).toList ++ rest) = some (.integer value, rest) := by
  have h := decimal_toDigits value.natAbs
  have hvalue : int64? (decide (value < 0)) value.natAbs = some value := by
    by_cases hnegative : value < 0
    · rw [int64?, decide_eq_true hnegative, if_pos rfl, if_pos (by omega)]
      exact congrArg some (by omega)
    · rw [int64?, decide_eq_false hnegative, if_neg (by decide), if_pos (by omega)]
      exact congrArg some (by omega)
  rw [toList_toString, List.append_assoc, readNumberLike?, h.readDateTime?_eq_none hrest,
    h.readFloat?_eq_none hrest, h.readInteger?_append hrest, hvalue]
  rfl

/-- A scalar is read back from its text, whatever ends it. -/
theorem readScalar?_text (v : WrittenScalar) (hrest : Ends rest) :
    readScalar? (v.text ++ rest) = some (v.scalar, rest) := by
  cases v with
  | string w =>
      have hmark : ∀ c ∈ rest.head?, c ≠ '"' := by
        rintro c hc rfl
        exact (hrest.ne_mark _ hc).2 (by decide)
      rw [WrittenScalar.text, readScalar?, w.readQuoted?_text hmark, WrittenScalar.scalar,
        Option.map_some, String.ofList_toList]
      rfl
  | integer value low high =>
      obtain ⟨c, s, htext, hfirst⟩ := exists_toString_eq_cons value
      have hc : c ∉ ['"', '\'', 't', 'f'] := by
        have hall : ∀ c ∈ ['"', '\'', 't', 'f'], ¬(c = '-' ∨ c.isDigit = true) := by decide
        exact fun hmem => hall c hmem hfirst
      simp only [List.mem_cons, List.not_mem_nil, or_false, not_or] at hc
      have hquoted : readQuoted? (c :: (s ++ rest)) = none := by simp [readQuoted?, hc]
      have hword : readWord? (c :: (s ++ rest)) = none :=
        readWord?_eq_none ⟨hc.2.2.1, hc.2.2.2⟩ (s ++ rest)
      have hnumber := readNumberLike?_integer low high hrest
      rw [htext, List.cons_append] at hnumber
      rw [WrittenScalar.text, readScalar?, WrittenScalar.scalar, htext, List.cons_append, hquoted,
        hword, hnumber]
      rfl
  | boolean value => cases value <;> rfl

/-! ## On one line

No key and no scalar holds a carriage return, so that each of those in a text stands right
before the end of a line.
-/

theorem Spells.no_return (h : Spells t c) : '\r' ∉ t := by
  cases h with
  | itself hplain _ _ =>
      rw [List.mem_singleton]
      rintro rfl
      cases hplain
  | @short letter _ hmem =>
      have hall : ∀ form ∈ shortForms, '\r' ≠ form.1 := by decide
      simpa using hall _ hmem
  | @code mark digits n hmark hnumber _ =>
      have hall : ∀ form ∈ [('u', 4), ('U', 8)], '\r' ≠ form.1 := by decide
      have hdigits : '\r' ∉ digits := fun hmem => by
        obtain ⟨d, hd⟩ := Text.exists_digit?_of_mem hnumber _ hmem
        cases hd
      simpa [hdigits] using hall _ hmark

theorem WrittenString.no_return (w : WrittenString) : '\r' ∉ w.text := by
  have hpieces : ∀ {pieces s}, List.Forall₂ Spells pieces s → '\r' ∉ pieces.flatten := by
    intro pieces s h
    induction h with
    | nil => exact List.not_mem_nil
    | cons hspells _ ih =>
        rw [List.flatten_cons, List.mem_append, not_or]
        exact ⟨hspells.no_return, ih⟩
  simp [text, hpieces w.spelled]

theorem WrittenKey.no_return (k : WrittenKey) : '\r' ∉ k.text := by
  cases k with
  | bare name _ free =>
      intro hmem
      cases free _ hmem
  | basic name => exact name.no_return
  | literal name free =>
      have hname : '\r' ∉ name.toList := fun hmem => by cases (free _ hmem).1
      simp [text, hname]

theorem WrittenScalar.no_return (v : WrittenScalar) : '\r' ∉ v.text := by
  cases v with
  | string w => exact w.no_return
  | integer value low high =>
      have hdigits : '\r' ∉ Nat.toDigits 10 value.natAbs := fun hmem => by
        cases (decimal_toDigits value.natAbs).isDigit _ hmem
      have hsign : '\r' ∉ signText (decide (value < 0)) := by
        cases decide (value < 0) <;> decide
      rw [text, toList_toString, List.mem_append, not_or]
      exact ⟨hsign, hdigits⟩
  | boolean value => cases value <;> decide

end DbRoute.Toml
