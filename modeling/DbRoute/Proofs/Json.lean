import DbRoute.Json
import DbRoute.Proofs.Layers
import DbRoute.Proofs.Text.Numeral

/-!
# The JSON form of properties

A JSON object of strings, with every way to write a character, white space wherever
the grammar has it, and any key as often as it likes. What reading makes of such a
text depends on its members alone. The text that properties are written as is one of
them, so properties are read back from it as they were, in their order.
-/

namespace DbRoute.Json

variable {c : Char} {s t rest body : List Char} {digits : List Char} {n : Nat} {text : String}
  {pair : Pair} {pairs : List Pair}

/-! ## The grammar -/

/-- Four hexadecimal digits and the code unit that they write. -/
structure CodeUnit (digits : List Char) (n : Nat) : Prop where
  length : digits.length = 4
  value : Text.numberIn? 16 digits = some n

/-- The letters behind a backslash, each with the character for which it stands. -/
def shortForms : List (Char × Char) :=
  [('"', '"'), ('\\', '\\'), ('/', '/'), ('b', '\x08'), ('f', '\x0C'), ('n', '\n'), ('r', '\r'),
    ('t', '\t')]

/-- The ways to write one character inside a string. -/
inductive Spells : List Char → Char → Prop
  | itself {c : Char} : c ≠ '"' → c ≠ '\\' → 0x20 ≤ c.toNat → Spells [c] c
  | short {letter c : Char} : (letter, c) ∈ shortForms → Spells ['\\', letter] c
  | unit {digits : List Char} {n : Nat} : CodeUnit digits n → ¬(0xD800 ≤ n ∧ n ≤ 0xDFFF) →
      Spells ('\\' :: 'u' :: digits) (Char.ofNat n)
  | surrogates {first second : List Char} {high low : Nat} :
      CodeUnit first high → 0xD800 ≤ high ∧ high ≤ 0xDBFF →
      CodeUnit second low → 0xDC00 ≤ low ∧ low ≤ 0xDFFF →
      Spells ('\\' :: 'u' :: first ++ '\\' :: 'u' :: second)
        (Char.ofNat (0x10000 + (high - 0xD800) * 0x400 + (low - 0xDC00)))

/-- The characters inside a string, one after the other. -/
inductive SpellsAll : List Char → List Char → Prop
  | nil : SpellsAll [] []
  | cons {t s body : List Char} {c : Char} :
      Spells t c → SpellsAll body s → SpellsAll (t ++ body) (c :: s)

/-- A string with its marks, and the text that it writes. -/
inductive IsString : List Char → String → Prop
  | mk {body : List Char} {text : String} :
      SpellsAll body text.toList → IsString ('"' :: body ++ ['"']) text

def White (s : List Char) : Prop := ∀ c ∈ s, c ∈ [' ', '\t', '\n', '\r']

instance (s : List Char) : Decidable (White s) :=
  List.decidableBAll (· ∈ [' ', '\t', '\n', '\r']) s

inductive IsMember : List Char → Pair → Prop
  | mk {key value before after : List Char} {pair : Pair} :
      IsString key pair.1 → White before → White after → IsString value pair.2 →
      IsMember (key ++ before ++ ':' :: after ++ value) pair

/-- Members with commas between them, at least one. -/
inductive IsMembers : List Char → List Pair → Prop
  | single {t : List Char} {pair : Pair} : IsMember t pair → IsMembers t [pair]
  | cons {t before after rest : List Char} {pair : Pair} {pairs : List Pair} :
      IsMember t pair → White before → White after → IsMembers rest pairs →
      IsMembers (t ++ before ++ ',' :: after ++ rest) (pair :: pairs)

/-- An object whose values are strings, with its members in order, repeated keys and all. -/
inductive IsObject : List Char → List Pair → Prop
  | empty {before inside after : List Char} : White before → White inside → White after →
      IsObject (before ++ '{' :: inside ++ '}' :: after) []
  | members {before first inner last after : List Char} {pairs : List Pair} :
      White before → White first → IsMembers inner pairs → White last → White after →
      IsObject (before ++ '{' :: first ++ inner ++ last ++ '}' :: after) pairs

/-! ## Reading strings -/

theorem isSpace_iff : isSpace c = true ↔ c ∈ [' ', '\t', '\n', '\r'] := by
  simp [isSpace]
  tauto

/-- The next character begins no white space. -/
def Solid (s : List Char) : Prop := ∀ c ∈ s.head?, isSpace c = false

theorem skipSpace_append (h : White t) (hs : Solid s) : skipSpace (t ++ s) = s := by
  have ht : ∀ c ∈ t, isSpace c = true := fun c hc => isSpace_iff.mpr (h c hc)
  rw [skipSpace, List.dropWhile_append_of_pos ht]
  cases s with
  | nil => rfl
  | cons c s => exact List.dropWhile_cons_of_neg (by simpa using hs c rfl)

theorem CodeUnit.ne_nil (h : CodeUnit digits n) : digits ≠ [] := by
  rintro rfl
  cases h.length

theorem CodeUnit.readString? (h : CodeUnit digits n) (rest : List Char) :
    readString? .plain ('\\' :: 'u' :: (digits ++ rest)) =
      if isHighSurrogate n then readString? (.secondHalf n) rest
      else if isLowSurrogate n then none
      else (readString? .plain rest).map fun r => (Char.ofNat n :: r.1, r.2) := by
  have hdigits := Text.countDown_digits (fun left unit => Json.readString? (.digit left unit))
    (fun n rest =>
      if isHighSurrogate n then Json.readString? (.secondHalf n) rest
      else if isLowSurrogate n then none
      else (Json.readString? .plain rest).map fun r => (Char.ofNat n :: r.1, r.2))
    (fun _ _ _ _ => rfl) h.ne_nil h.value rest
  rwa [h.length] at hdigits

theorem CodeUnit.readString?_second (h : CodeUnit digits n) (high : Nat) (rest : List Char) :
    Json.readString? (.secondHalf high) ('\\' :: 'u' :: (digits ++ rest)) =
      if isLowSurrogate n then
        (Json.readString? .plain rest).map fun r => (fromSurrogates high n :: r.1, r.2)
      else none := by
  have hdigits := Text.countDown_digits
    (fun left unit => Json.readString? (.secondDigit high left unit))
    (fun n rest =>
      if isLowSurrogate n then
        (Json.readString? .plain rest).map fun r => (fromSurrogates high n :: r.1, r.2)
      else none)
    (fun _ _ _ _ => rfl) h.ne_nil h.value rest
  rwa [h.length] at hdigits

theorem shortEscape?_of_mem {letter : Char} (h : (letter, c) ∈ shortForms) :
    letter ≠ 'u' ∧ shortEscape? letter = some c := by
  have hall : ∀ form ∈ shortForms, form.1 ≠ 'u' ∧ shortEscape? form.1 = some form.2 := by decide
  exact hall _ h

/-- However a character is written, it is read as itself. -/
theorem Spells.readString? (h : Spells t c) (rest : List Char) :
    readString? .plain (t ++ rest) =
      (readString? .plain rest).map fun r => (c :: r.1, r.2) := by
  cases h with
  | itself hmark hslash hcontrol =>
      rw [List.singleton_append, Json.readString?, if_neg hmark, if_neg hslash,
        if_neg (by omega)]
  | @short letter _ hmem =>
      obtain ⟨hletter, hshort⟩ := shortEscape?_of_mem hmem
      show Json.readString? .letter (letter :: rest) = _
      rw [Json.readString?, if_neg hletter, hshort]
  | @unit digits n hunit hplain =>
      have hhigh : isHighSurrogate n = false := by
        simp only [isHighSurrogate, Bool.and_eq_false_iff, decide_eq_false_iff_not]
        omega
      have hlow : isLowSurrogate n = false := by
        simp only [isLowSurrogate, Bool.and_eq_false_iff, decide_eq_false_iff_not]
        omega
      show Json.readString? .plain ('\\' :: 'u' :: (digits ++ rest)) = _
      rw [hunit.readString?, hhigh, hlow]
      rfl
  | @surrogates first second high low hfirst hhigh hsecond hlow =>
      have hhigh' : isHighSurrogate high = true := by simp [isHighSurrogate, hhigh]
      have hlow' : isLowSurrogate low = true := by simp [isLowSurrogate, hlow]
      rw [List.append_assoc]
      show Json.readString? .plain ('\\' :: 'u' :: (first ++ ('\\' :: 'u' :: (second ++ rest)))) = _
      rw [hfirst.readString?, hhigh', if_pos rfl, hsecond.readString?_second, hlow', if_pos rfl]
      rfl

theorem SpellsAll.readString? (h : SpellsAll body s) (rest : List Char) :
    readString? .plain (body ++ '"' :: rest) = some (s, rest) := by
  induction h with
  | nil => rfl
  | cons hspells _ ih => rw [List.append_assoc, hspells.readString?, ih]; rfl

theorem IsString.readQuoted? (h : IsString t text) (rest : List Char) :
    readQuoted? (t ++ rest) = some (text, rest) := by
  obtain ⟨hbody⟩ := h
  have hread := hbody.readString? rest
  simp only [List.cons_append, List.append_assoc, List.nil_append, Json.readQuoted?, hread,
    Option.map_some, String.ofList_toList]

/-! ## Reading objects -/

theorem solid_cons (h : isSpace c = false) (s : List Char) : Solid (c :: s) := by
  rintro _ ⟨⟩
  exact h

theorem IsString.exists_cons (h : IsString t text) : ∃ tail, t = '"' :: tail := by
  obtain ⟨_⟩ := h
  exact ⟨_, rfl⟩

theorem IsMember.exists_cons (h : IsMember t pair) : ∃ tail, t = '"' :: tail := by
  obtain ⟨hkey, _, _, _⟩ := h
  obtain ⟨tail, rfl⟩ := hkey.exists_cons
  exact ⟨_, rfl⟩

theorem IsMembers.exists_cons (h : IsMembers t pairs) : ∃ tail, t = '"' :: tail := by
  cases h with
  | single hmember => exact hmember.exists_cons
  | cons hmember _ _ _ =>
      obtain ⟨tail, rfl⟩ := hmember.exists_cons
      exact ⟨_, rfl⟩

theorem solid_append (h : ∃ tail, t = '"' :: tail) (rest : List Char) : Solid (t ++ rest) := by
  obtain ⟨tail, rfl⟩ := h
  exact solid_cons rfl _

theorem IsMember.readMember? (h : IsMember t pair) (rest : List Char) :
    readMember? (t ++ rest) = some (pair, rest) := by
  obtain ⟨hkey, hbefore, hafter, hvalue⟩ := h
  simp only [List.append_assoc, List.cons_append, Json.readMember?, hkey.readQuoted?,
    Option.bind_eq_bind, Option.bind_some, skipSpace_append hbefore (solid_cons (c := ':') rfl _),
    skipSpace_append hafter (solid_append hvalue.exists_cons rest), hvalue.readQuoted?]
  rfl

theorem IsMembers.length_le (h : IsMembers t pairs) : pairs.length ≤ t.length := by
  have hpos : ∀ {s : List Char}, (∃ tail, s = '"' :: tail) → 0 < s.length := by
    rintro _ ⟨tail, rfl⟩
    exact Nat.succ_pos _
  induction h with
  | single hmember => exact hpos hmember.exists_cons
  | cons hmember _ _ _ ih =>
      have := hpos hmember.exists_cons
      simp only [List.length_cons, List.length_append]
      omega

/-- A round for every member is enough. -/
theorem IsMembers.readMembers? (h : IsMembers t pairs) {fuel : Nat} (hfuel : pairs.length ≤ fuel)
    {last : List Char} (hlast : White last) (rest : List Char) :
    readMembers? fuel (t ++ (last ++ '}' :: rest)) = some (pairs, rest) := by
  induction h generalizing fuel with
  | single hmember =>
      obtain ⟨fuel, rfl⟩ : ∃ n, fuel = n + 1 := Nat.exists_eq_add_one.mpr hfuel
      simp only [Json.readMembers?, hmember.readMember?, Option.bind_eq_bind, Option.bind_some,
        skipSpace_append hlast (solid_cons (c := '}') rfl _)]
      rfl
  | cons hmember hbefore hafter hmembers ih =>
      obtain ⟨fuel, rfl⟩ : ∃ n, fuel = n + 1 :=
        Nat.exists_eq_add_one.mpr (Nat.lt_of_lt_of_le (Nat.succ_pos _) hfuel)
      simp only [List.append_assoc, List.cons_append, Json.readMembers?, hmember.readMember?,
        Option.bind_eq_bind, Option.bind_some,
        skipSpace_append hbefore (solid_cons (c := ',') rfl _),
        skipSpace_append hafter (solid_append hmembers.exists_cons _),
        ih (Nat.le_of_succ_le_succ hfuel)]
      rfl

theorem isEmpty_skipSpace (h : White t) : (skipSpace t).isEmpty = true := by
  have hskip := skipSpace_append (s := []) h (by rintro _ ⟨⟩)
  rw [List.append_nil] at hskip
  rw [hskip]
  rfl

/-- Every object of strings is read as its members, in their order. -/
theorem IsObject.readObject? (h : IsObject t pairs) : readObject? t = some pairs := by
  cases h with
  | empty hbefore hinside hafter =>
      simp only [List.append_assoc, List.cons_append, Json.readObject?,
        skipSpace_append hbefore (solid_cons (c := '{') rfl _),
        skipSpace_append hinside (solid_cons (c := '}') rfl _), Option.bind_some,
        isEmpty_skipSpace hafter, if_true]
  | @members before first inner last after pairs hbefore hfirst hmembers hlast hafter =>
      have hfuel : pairs.length ≤
          (before ++ '{' :: (first ++ (inner ++ (last ++ '}' :: after)))).length := by
        have := hmembers.length_le
        simp only [List.length_append, List.length_cons]
        omega
      have hread := hmembers.readMembers? hfuel hlast after
      obtain ⟨tail, rfl⟩ := hmembers.exists_cons
      simp only [List.append_assoc, List.cons_append] at hread ⊢
      simp only [Json.readObject?, skipSpace_append hbefore (solid_cons (c := '{') rfl _),
        skipSpace_append hfirst (solid_cons (c := '"') rfl _)]
      refine (congrArg (Option.bind · _) hread).trans ?_
      rw [Option.bind_some, isEmpty_skipSpace hafter, if_pos rfl]

/-! ## Writing -/

theorem codeUnit_control (h : n < 0x20) :
    CodeUnit ['0', '0', hexDigit (n / 16), hexDigit (n % 16)] n := by
  refine ⟨rfl, ?_⟩
  have hall : ∀ n < 0x20,
      Text.numberIn? 16 ['0', '0', hexDigit (n / 16), hexDigit (n % 16)] = some n := by decide
  exact hall n h

/-- Whatever is escaped is escaped in one of the ways of the grammar. -/
theorem spells_escape (c : Char) : Spells (escape c) c := by
  have hcode : ∀ {d : Char}, c.toNat = d.toNat → c = d := fun h => Char.ext (UInt32.toNat_inj.mp h)
  have hshort : ∀ {letter d : Char}, (letter, d) ∈ shortForms → c = d → Spells ['\\', letter] c :=
    fun hmem h => h ▸ .short hmem
  unfold escape
  split
  · next h => exact hshort (d := '"') (by decide) h
  split
  · next h => exact hshort (d := '\\') (by decide) h
  split
  · next h => exact hshort (d := '\x08') (by decide) (hcode h)
  split
  · next h => exact hshort (d := '\x0C') (by decide) (hcode h)
  split
  · next h => exact hshort (by decide) h
  split
  · next h => exact hshort (by decide) h
  split
  · next h => exact hshort (by decide) h
  split
  · next h =>
    have hspells := Spells.unit (codeUnit_control h) (by omega)
    rwa [Char.ofNat_toNat] at hspells
  · next hmark hslash _ _ _ _ _ hcontrol => exact .itself hmark hslash (Nat.not_lt.mp hcontrol)

theorem isString_quote (text : String) : IsString (quote text) text := by
  have hall : ∀ s : List Char, SpellsAll (s.flatMap escape) s := by
    intro s
    induction s with
    | nil => exact .nil
    | cons c s ih => exact .cons (spells_escape c) ih
  exact .mk (hall text.toList)

theorem white_nil : White [] := fun _ h => nomatch h

theorem isMember_member (pair : Pair) : IsMember (member pair) pair := by
  have hmember := IsMember.mk (isString_quote pair.1) white_nil white_nil (isString_quote pair.2)
  rwa [List.append_nil, List.append_assoc] at hmember

theorem isMembers_members (pair : Pair) (pairs : List Pair) :
    IsMembers (members (pair :: pairs)) (pair :: pairs) := by
  induction pairs generalizing pair with
  | nil => exact .single (isMember_member pair)
  | cons next pairs ih =>
      have hmembers := IsMembers.cons (isMember_member pair) white_nil white_nil (ih next)
      rwa [List.append_nil, List.append_assoc] at hmembers

end DbRoute.Json

namespace DbRoute.Properties

open Json

variable {text : String} {pairs : List Pair}

theorem isObject_toJson (p : Properties) : IsObject p.toJson.toList p.pairs := by
  rw [toJson, String.toList_ofList]
  cases p.pairs with
  | nil => exact .empty white_nil white_nil white_nil
  | cons pair pairs =>
      have hobject :=
        IsObject.members white_nil white_nil (isMembers_members pair pairs) white_nil white_nil
      rwa [List.append_nil] at hobject

theorem ofJson?_of_isObject (h : IsObject text.toList pairs) :
    ofJson? text = some (ofList pairs) := by
  rw [ofJson?, h.readObject?]
  rfl

theorem ofJson?_toJson (p : Properties) : ofJson? p.toJson = some p := by
  rw [ofJson?_of_isObject p.isObject_toJson]
  exact congrArg some (empty_overlay p)

/-- Properties are written as a JSON object of their own pairs and read back from it as
they were, in the same order, whatever characters they hold. And from any JSON object
of strings the properties that are read have its keys in the order in which each first
comes and under each the last value, so that they, too, are read back from what they
are written as. -/
theorem json_round_trip :
    (∀ p : Properties, IsObject p.toJson.toList p.pairs ∧ ofJson? p.toJson = some p) ∧
    ∀ (text : String) (pairs : List Pair), IsObject text.toList pairs →
      ∃ p, ofJson? text = some p ∧ p.keys = (Pairs.keys pairs).eraseDups ∧
        (∀ key, p.get? key = pairs.reverse.lookup key) ∧ ofJson? p.toJson = some p := by
  refine ⟨fun p => ⟨p.isObject_toJson, ofJson?_toJson p⟩, ?_⟩
  intro text pairs h
  exact ⟨ofList pairs, ofJson?_of_isObject h, keys_ofList pairs, get?_ofList pairs,
    ofJson?_toJson _⟩

/-- A key that comes twice, spelled in two ways, and then with a character that takes
two code units. -/
def repeatedKey : String :=
  "\x7b\"a\":\"1\",\t\"b\" :\"\",\"\\u0061\": \"\\uD83d\\uDE00\\/\"\x7d\n"

theorem isObject_repeatedKey :
    IsObject repeatedKey.toList [("a", "1"), ("b", ""), ("a", "😀/")] := by
  have hletter : ∀ {c : Char}, c ≠ '"' → c ≠ '\\' → 0x20 ≤ c.toNat → SpellsAll [c] [c] :=
    fun hmark hslash hcontrol => .cons (.itself hmark hslash hcontrol) .nil
  have ha : IsString ('"' :: ['a'] ++ ['"']) "a" :=
    .mk (hletter (by decide) (by decide) (by decide))
  have hone : IsString ('"' :: ['1'] ++ ['"']) "1" :=
    .mk (hletter (by decide) (by decide) (by decide))
  have hb : IsString ('"' :: ['b'] ++ ['"']) "b" :=
    .mk (hletter (by decide) (by decide) (by decide))
  have hempty : IsString ('"' :: [] ++ ['"']) "" := .mk .nil
  have hunit : CodeUnit "0061".toList 0x61 := ⟨rfl, by decide⟩
  have hescaped : Spells ('\\' :: 'u' :: "0061".toList) 'a' := .unit hunit (by decide)
  have hspelled : IsString _ "a" := .mk (.cons hescaped .nil)
  have hhigh : CodeUnit "D83d".toList 0xD83D := ⟨rfl, by decide⟩
  have hlow : CodeUnit "DE00".toList 0xDE00 := ⟨rfl, by decide⟩
  have hpair : Spells ('\\' :: 'u' :: "D83d".toList ++ '\\' :: 'u' :: "DE00".toList) _ :=
    .surrogates hhigh (by decide) hlow (by decide)
  have hslash : Spells ['\\', '/'] '/' := .short (by decide)
  have hface : IsString _ "😀/" := .mk (.cons hpair (.cons hslash .nil))
  have hspace : White [' '] := by decide
  have htab : White ['\t'] := by decide
  have hbreak : White ['\n'] := by decide
  have hfirst : IsMember _ ("a", "1") := .mk ha white_nil white_nil hone
  have hsecond : IsMember _ ("b", "") := .mk hb hspace white_nil hempty
  have hthird : IsMember _ ("a", "😀/") := .mk hspelled white_nil hspace hface
  have hmembers : IsMembers _ [("a", "1"), ("b", ""), ("a", "😀/")] :=
    .cons hfirst white_nil htab (.cons hsecond white_nil white_nil (.single hthird))
  exact .members white_nil white_nil hmembers white_nil hbreak

/-- The last of the two values counts, in the place of the first. -/
theorem json_round_trip_repeatedKey :
    ∃ p, ofJson? repeatedKey = some p ∧ p.keys = ["a", "b"] ∧ p.get? "a" = some "😀/" ∧
      p.get? "b" = some "" ∧ ofJson? p.toJson = some p := by
  obtain ⟨_, hread⟩ := json_round_trip
  obtain ⟨p, hp, hkeys, hget, hagain⟩ := hread _ _ isObject_repeatedKey
  exact ⟨p, hp, hkeys.trans (by decide), hget "a", hget "b", hagain⟩

end DbRoute.Properties
