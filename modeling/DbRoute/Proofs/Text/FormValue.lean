import DbRoute.Text

/-!
# Percent-encoding

To write a value for a query, every byte of its UTF-8 form outside a small set
is written as a percent sign and two hexadecimal digits. What is written holds
no delimiter and no plus sign, and stands for the value again.
-/

namespace DbRoute.Text

/-- The letters, the digits and the four marks that stand for themselves. -/
def isUnreserved (b : UInt8) : Bool :=
  let n := b.toNat
  (48 ≤ n && n ≤ 57) || (65 ≤ n && n ≤ 90) || (97 ≤ n && n ≤ 122) ||
    n == 45 || n == 46 || n == 95 || n == 126

def hexDigit (n : Nat) : UInt8 :=
  .ofNat (if n < 10 then 48 + n else 55 + n)

def encodeByte (b : UInt8) : List UInt8 :=
  if isUnreserved b then [b]
  else [percentSign, hexDigit (b.toNat / 16), hexDigit (b.toNat % 16)]

def encodedBytes (value : String) : List UInt8 :=
  value.toUTF8.data.toList.flatMap encodeByte

/-- The value, percent-encoded. -/
def percentEncode (value : String) : String :=
  String.ofList ((encodedBytes value).map Char.ofUInt8)

theorem forall_byte {P : UInt8 → Prop} (h : ∀ n < 256, P (UInt8.ofNat n)) (b : UInt8) : P b := by
  have hb := h b.toNat b.toNat_lt
  rwa [UInt8.ofNat_toNat] at hb

/-! ## What is written -/

/-- The characters of an encoded value. -/
def isEncoding (b : UInt8) : Bool :=
  isUnreserved b || b == percentSign

theorem all_isEncoding_encodeByte (b : UInt8) : (encodeByte b).all isEncoding = true :=
  forall_byte (P := fun b => (encodeByte b).all isEncoding = true) (by decide +kernel) b

theorem isEncoding_of_mem {value : String} {x : UInt8} (h : x ∈ encodedBytes value) :
    isEncoding x = true := by
  obtain ⟨b, _, hx⟩ := List.mem_flatMap.mp h
  exact List.all_eq_true.mp (all_isEncoding_encodeByte b) x hx

/-- An encoded character is ASCII and is neither a plus sign nor a delimiter. -/
theorem of_isEncoding (x : UInt8) :
    isEncoding x = true → x < 128 ∧ Char.ofUInt8 x ∉ ['+', '&', '='] :=
  forall_byte (P := fun x => isEncoding x = true → x < 128 ∧ Char.ofUInt8 x ∉ ['+', '&', '='])
    (by decide +kernel) x

theorem not_mem_percentEncode (value : String) {c : Char} (hc : c ∈ ['+', '&', '=']) :
    c ∉ (percentEncode value).toList := by
  rw [percentEncode, String.toList_ofList, List.mem_map]
  rintro ⟨x, hx, rfl⟩
  exact (of_isEncoding x (isEncoding_of_mem hx)).2 hc

/-! ## What it stands for -/

theorem percentDecode_cons {b : UInt8} (h : b ≠ percentSign) (rest : List UInt8) :
    percentDecode (b :: rest) = b :: percentDecode rest := by
  match rest with
  | [] => rfl
  | [_] => rfl
  | _ :: _ :: _ => rw [percentDecode, if_neg h]

theorem hexByte?_hexDigit (b : UInt8) :
    hexByte? (hexDigit (b.toNat / 16)) (hexDigit (b.toNat % 16)) = some b :=
  forall_byte (P := fun b => hexByte? (hexDigit (b.toNat / 16)) (hexDigit (b.toNat % 16)) = some b)
    (by decide +kernel) b

theorem percentDecode_encodeByte (b : UInt8) (rest : List UInt8) :
    percentDecode (encodeByte b ++ rest) = b :: percentDecode rest := by
  unfold encodeByte
  split
  · next hb =>
    refine percentDecode_cons ?_ rest
    rintro rfl
    exact absurd hb (by decide)
  · -- Here the scan takes three bytes at once.
    change percentDecode (percentSign :: _ :: _ :: rest) = _
    rw [percentDecode, if_pos rfl, hexByte?_hexDigit]

theorem percentDecode_flatMap (bytes : List UInt8) :
    percentDecode (bytes.flatMap encodeByte) = bytes := by
  induction bytes with
  | nil => rfl
  | cons b bytes ih => rw [List.flatMap_cons, percentDecode_encodeByte, ih]

theorem utf8EncodeChar_ofUInt8 (x : UInt8) :
    x < 128 → String.utf8EncodeChar (Char.ofUInt8 x) = [x] :=
  forall_byte (P := fun x => x < 128 → String.utf8EncodeChar (Char.ofUInt8 x) = [x])
    (by decide +kernel) x

/-- ASCII text is its own UTF-8 form. -/
theorem toUTF8_ofList_map {bytes : List UInt8} (h : ∀ x ∈ bytes, x < 128) :
    (String.ofList (bytes.map Char.ofUInt8)).toUTF8.data.toList = bytes := by
  rw [String.toUTF8_eq_toByteArray, String.toByteArray_ofList, List.utf8Encode,
    List.toList_data_toByteArray]
  induction bytes with
  | nil => rfl
  | cons x bytes ih =>
      obtain ⟨hx, hbytes⟩ := List.forall_mem_cons.mp h
      rw [List.map_cons, List.flatMap_cons, utf8EncodeChar_ofUInt8 x hx, ih hbytes]
      rfl

theorem fromUTF8?_toUTF8 (value : String) :
    String.fromUTF8? ⟨value.toUTF8.data.toList.toArray⟩ = some value := by
  rw [Array.toArray_toList]
  exact dif_pos value.isValidUTF8

/-- A value is read back from its encoding. -/
theorem formDecode_percentEncode (value : String) : formDecode (percentEncode value) = value := by
  have hspaced : (percentEncode value).toList.map plusToSpace = (percentEncode value).toList := by
    refine (List.map_congr_left fun c hc => ?_).trans (List.map_id _)
    exact if_neg fun e => not_mem_percentEncode value (by simp) (e ▸ hc)
  have hbytes : (percentEncode value).toUTF8.data.toList = encodedBytes value :=
    toUTF8_ofList_map fun x hx => (of_isEncoding x (isEncoding_of_mem hx)).1
  unfold formDecode
  rw [hspaced, String.ofList_toList]
  dsimp only
  rw [hbytes, encodedBytes, percentDecode_flatMap, fromUTF8?_toUTF8, Option.getD_some]

theorem percentEncode_ne_empty {value : String} (h : value ≠ "") : percentEncode value ≠ "" := by
  intro hempty
  have hvalue := formDecode_percentEncode value
  rw [hempty] at hvalue
  exact h (hvalue.symm.trans (by decide +kernel))

end DbRoute.Text
