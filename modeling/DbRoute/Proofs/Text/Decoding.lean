import DbRoute.Proofs.Text.FormValue

/-!
# What an encoded value stands for

Reading from the left, a percent sign and two hexadecimal digits are the byte
that the digits write, and every other byte is itself, a percent sign without
two such digits among them. A value stands for the text whose UTF-8 form is
read from it in this way, with a blank for every plus sign, or for itself if no
text has that form.
-/

namespace DbRoute.Text

/-- The byte is the hexadecimal digit of value `n`, as a letter in either case. -/
def IsHexDigit (n : Nat) (digit : UInt8) : Prop :=
  "0123456789abcdef".toList[n]? = some (Char.ofUInt8 digit) ∨
    "0123456789ABCDEF".toList[n]? = some (Char.ofUInt8 digit)

/-- The two digits write the byte, the higher one first. -/
def Writes (high low byte : UInt8) : Prop :=
  IsHexDigit (byte.toNat / 16) high ∧ IsHexDigit (byte.toNat % 16) low

/-- Two digits that write a byte follow a percent sign. -/
def IsEscape (bytes : List UInt8) : Prop :=
  ∃ high low byte rest, bytes = percentSign :: high :: low :: rest ∧ Writes high low byte

/-- What a percent-encoded form is read as. -/
inductive Decodes : List UInt8 → List UInt8 → Prop
  | nil : Decodes [] []
  | escape {high low byte : UInt8} {rest decoded : List UInt8} : Writes high low byte →
      Decodes rest decoded → Decodes (percentSign :: high :: low :: rest) (byte :: decoded)
  | plain {b : UInt8} {rest decoded : List UInt8} : ¬IsEscape (b :: rest) →
      Decodes rest decoded → Decodes (b :: rest) (b :: decoded)

/-- The UTF-8 form of a text. -/
def utf8 (s : String) : List UInt8 := s.toUTF8.data.toList

/-- A value with a blank for every plus sign. -/
def spaced (raw : String) : String := String.ofList (raw.toList.map plusToSpace)

/-- The text that a form-encoded value stands for. -/
inductive StandsFor (raw : String) : String → Prop
  | decoded {text : String} : Decodes (utf8 (spaced raw)) (utf8 text) → StandsFor raw text
  | itself {bytes : List UInt8} : Decodes (utf8 (spaced raw)) bytes → (∀ text, utf8 text ≠ bytes) →
      StandsFor raw raw

/-! ## Hexadecimal digits -/

theorem digit?_lt {base n : Nat} {c : Char} (h : digit? base c = some n) : n < base := by
  unfold digit? at h
  obtain ⟨hlt, hvalue⟩ := Option.ite_none_right_eq_some.mp h
  exact Option.some.inj hvalue ▸ hlt

theorem digit?_eq_some_iff {n : Nat} (hn : n < 16) (digit : UInt8) :
    digit? 16 (Char.ofNat digit.toNat) = some n ↔ IsHexDigit n digit := by
  suffices h : ∀ n < 16, digit? 16 (Char.ofNat digit.toNat) = some n ↔
      "0123456789abcdef".toList[n]? = some (Char.ofUInt8 digit) ∨
        "0123456789ABCDEF".toList[n]? = some (Char.ofUInt8 digit) from
    h n hn
  revert digit
  exact forall_byte (by decide +kernel)

theorem hexByte?_eq (high low : UInt8) :
    hexByte? high low = (digit? 16 (Char.ofNat high.toNat)).bind fun m =>
      (digit? 16 (Char.ofNat low.toNat)).map fun n => UInt8.ofNat (16 * m + n) := by
  rw [hexByte?, numberIn?]
  simp only [List.foldlM_cons, List.foldlM_nil, Nat.mul_zero, Nat.zero_add]
  cases digit? 16 (Char.ofNat high.toNat) with
  | none => rfl
  | some m => cases digit? 16 (Char.ofNat low.toNat) <;> rfl

theorem hexByte?_eq_some {high low byte : UInt8} :
    hexByte? high low = some byte ↔ Writes high low byte := by
  have hlt := byte.toNat_lt
  rw [Writes, ← digit?_eq_some_iff (by omega), ← digit?_eq_some_iff (by omega), hexByte?_eq]
  constructor
  · intro h
    obtain ⟨m, hm, h⟩ := Option.bind_eq_some_iff.mp h
    obtain ⟨n, hn, rfl⟩ := Option.map_eq_some_iff.mp h
    have hm16 := digit?_lt hm
    have hn16 := digit?_lt hn
    have hlt256 : 16 * m + n < 256 := by omega
    have hbyte : (UInt8.ofNat (16 * m + n)).toNat = 16 * m + n := UInt8.toNat_ofNat_of_lt hlt256
    rw [hbyte, hm, hn]
    exact ⟨congrArg some (by omega), congrArg some (by omega)⟩
  · rintro ⟨hhigh, hlow⟩
    have hbyte : 16 * (byte.toNat / 16) + byte.toNat % 16 = byte.toNat := by omega
    rw [hhigh, hlow, Option.bind_some, Option.map_some, hbyte, UInt8.ofNat_toNat]

/-! ## Reading bytes -/

theorem percentDecode_escape {high low byte : UInt8} (h : Writes high low byte)
    (rest : List UInt8) :
    percentDecode (percentSign :: high :: low :: rest) = byte :: percentDecode rest := by
  rw [percentDecode, if_pos rfl, hexByte?_eq_some.mpr h]

theorem percentDecode_plain {b : UInt8} {rest : List UInt8} (h : ¬IsEscape (b :: rest)) :
    percentDecode (b :: rest) = b :: percentDecode rest := by
  by_cases hb : b = percentSign
  · match rest with
    | [] => rfl
    | [_] => rfl
    | high :: low :: rest =>
        rw [percentDecode, if_pos hb]
        cases hbyte : hexByte? high low with
        | none => rfl
        | some byte => exact absurd ⟨_, _, _, _, by rw [hb], hexByte?_eq_some.mp hbyte⟩ h
  · exact percentDecode_cons hb rest

theorem decodes_percentDecode : ∀ bytes : List UInt8, Decodes bytes (percentDecode bytes)
  | [] => .nil
  | b :: rest => by
      by_cases h : IsEscape (b :: rest)
      · obtain ⟨high, low, byte, behind, hbytes, hwrites⟩ := h
        obtain ⟨rfl, rfl⟩ := List.cons.inj hbytes
        rw [percentDecode_escape hwrites]
        exact .escape hwrites (decodes_percentDecode behind)
      · rw [percentDecode_plain h]
        exact .plain h (decodes_percentDecode rest)
termination_by bytes => bytes.length

theorem decodes_iff {bytes decoded : List UInt8} :
    Decodes bytes decoded ↔ percentDecode bytes = decoded := by
  constructor
  · intro h
    induction h with
    | nil => rfl
    | escape hwrites _ ih => rw [percentDecode_escape hwrites, ih]
    | plain hplain _ ih => rw [percentDecode_plain hplain, ih]
  · rintro rfl
    exact decodes_percentDecode bytes

/-! ## Reading texts -/

theorem fromUTF8?_eq_some {bytes : List UInt8} {text : String} :
    String.fromUTF8? ⟨bytes.toArray⟩ = some text ↔ utf8 text = bytes := by
  constructor
  · intro h
    rw [String.fromUTF8?] at h
    split at h
    · cases h
      rfl
    · cases h
  · rintro rfl
    exact fromUTF8?_toUTF8 text

theorem formDecode_eq_iff {raw text : String} : formDecode raw = text ↔ StandsFor raw text := by
  have hdecoded := decodes_percentDecode (utf8 (spaced raw))
  have hread : formDecode raw =
      (String.fromUTF8? ⟨(percentDecode (utf8 (spaced raw))).toArray⟩).getD raw := rfl
  constructor
  · rintro rfl
    cases hutf8 : String.fromUTF8? ⟨(percentDecode (utf8 (spaced raw))).toArray⟩ with
    | some text =>
        rw [← fromUTF8?_eq_some.mp hutf8] at hdecoded
        rw [hread, hutf8]
        exact .decoded hdecoded
    | none =>
        rw [hread, hutf8]
        refine .itself hdecoded fun text htext => ?_
        cases hutf8.symm.trans (fromUTF8?_eq_some.mpr htext)
  · rintro (htext | ⟨hbytes, hnone⟩)
    · rw [hread, fromUTF8?_eq_some.mpr (decodes_iff.mp htext).symm]
      rfl
    · have hutf8 : String.fromUTF8? ⟨(percentDecode (utf8 (spaced raw))).toArray⟩ = none := by
        rw [Option.eq_none_iff_forall_ne_some]
        intro text htext
        exact hnone text ((fromUTF8?_eq_some.mp htext).trans (decodes_iff.mp hbytes))
      rw [hread, hutf8]
      rfl

example : Decodes "a%4G%c3%A9%".toUTF8.data.toList "a%4Gé%".toUTF8.data.toList :=
  decodes_iff.mpr (by decide +kernel)

end DbRoute.Text
