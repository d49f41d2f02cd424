import DbRoute.Proofs.Text.AsciiCase
import DbRoute.Proofs.Text.Decoding
import DbRoute.Url
import Mathlib.Data.List.Forall2

/-!
# How texts and URLs start

The opening of a URL is compared byte by byte. Bytes agree up to the case of ASCII
letters if and only if characters do, since the bytes of all other characters are
beyond ASCII. So a text starts with a keyword if its first characters, as many as
the keyword has, are those of the keyword in some case, and what the keyword takes
of the text ends between two characters.

No opening of a URL is the beginning of another, so at most one scheme opens a
URL, and the order in which they are tried does not matter.
-/

namespace DbRoute.Text

variable {c k : Char} {s keyword : List Char}

/-! ## Characters -/

/-- The two forms of one of the letters A to Z. -/
def AreCases (capital small : Char) : Prop :=
  ∃ i < 26, capital.toNat = 'A'.toNat + i ∧ small.toNat = 'a'.toNat + i

/-- The same character, or the same letter in the other case. -/
def Alike (c k : Char) : Prop := c = k ∨ AreCases c k ∨ AreCases k c

theorem alike_iff : Alike c k ↔ c.toLower = k.toLower := by
  have hA : 'A'.toNat = 65 := rfl
  have ha : 'a'.toNat = 97 := rfl
  have hc := toNat_toLower c
  have hk := toNat_toLower k
  rw [Alike, AreCases, AreCases, ← Char.toNat_inj, ← Char.toNat_inj, hA, ha]
  constructor
  · rintro (h | ⟨i, hi, hcapital, hsmall⟩ | ⟨i, hi, hcapital, hsmall⟩)
    · rw [hc, hk, h]
    · rw [if_pos (by omega)] at hc
      rw [if_neg (by omega)] at hk
      omega
    · rw [if_neg (by omega)] at hc
      rw [if_pos (by omega)] at hk
      omega
  · intro h
    split at hc
    · split at hk
      · exact Or.inl (by omega)
      · exact Or.inr (Or.inl ⟨c.toNat - 65, by omega, by omega, by omega⟩)
    · split at hk
      · exact Or.inr (Or.inr ⟨k.toNat - 65, by omega, by omega, by omega⟩)
      · exact Or.inl (by omega)

theorem sameIgnoringCase_iff_alike :
    sameIgnoringCase s keyword = true ↔ List.Forall₂ Alike s keyword := by
  have halike : Alike = fun c k => c.toLower = k.toLower := by
    funext c k
    exact propext alike_iff
  rw [sameIgnoringCase_iff, ← List.forall₂_eq_eq_eq, List.forall₂_map_left_iff,
    List.forall₂_map_right_iff, halike]

/-! ## Bytes -/

/-- The byte, made small if it is that of a capital letter. -/
def lowerByte (b : UInt8) : UInt8 := if 65 ≤ b ∧ b ≤ 90 then b + 32 else b

/-- As many bytes of the text as the keyword has end between two characters, and are
the bytes of the keyword but for the case of letters. -/
def StartsInBytes (s keyword : String) : Prop :=
  IsBoundary s.toList keyword.utf8ByteSize ∧
    ((utf8 s).take keyword.utf8ByteSize).map lowerByte = (utf8 keyword).map lowerByte

/-- No byte of a character beyond ASCII is an ASCII one. -/
theorem le_of_mem_utf8EncodeChar (hc : 128 ≤ c.toNat) {b : UInt8}
    (hb : b ∈ String.utf8EncodeChar c) : 128 ≤ b.toNat := by
  have hval : c.val.toNat = c.toNat := rfl
  obtain ⟨n, hle, hlt, rfl⟩ : ∃ n, 128 ≤ n ∧ n < 256 ∧ b = UInt8.ofNat n := by
    unfold String.utf8EncodeChar at hb
    simp only at hb
    split at hb
    · omega
    · split at hb
      · simp only [List.mem_cons, List.not_mem_nil, or_false] at hb
        rcases hb with rfl | rfl <;> exact ⟨_, by omega, by omega, rfl⟩
      · split at hb
        · simp only [List.mem_cons, List.not_mem_nil, or_false] at hb
          rcases hb with rfl | rfl | rfl <;> exact ⟨_, by omega, by omega, rfl⟩
        · simp only [List.mem_cons, List.not_mem_nil, or_false] at hb
          rcases hb with rfl | rfl | rfl | rfl <;> exact ⟨_, by omega, by omega, rfl⟩
  have hbyte : (UInt8.ofNat n).toNat = n := UInt8.toNat_ofNat_of_lt hlt
  rwa [hbyte]

theorem map_lowerByte_utf8EncodeChar (c : Char) :
    (String.utf8EncodeChar c).map lowerByte = String.utf8EncodeChar c.toLower := by
  by_cases hc : c.toNat < 128
  · have hascii : ∀ n < 128, (String.utf8EncodeChar (Char.ofNat n)).map lowerByte =
        String.utf8EncodeChar (Char.ofNat n).toLower := by decide +kernel
    have h := hascii c.toNat hc
    rwa [Char.ofNat_toNat] at h
  · have hlower := toNat_toLower c
    rw [if_neg (by omega)] at hlower
    rw [Char.toNat_inj.mp hlower]
    refine (List.map_congr_left fun b hb => ?_).trans (List.map_id _)
    have hle := le_of_mem_utf8EncodeChar (by omega) hb
    refine if_neg ?_
    rintro ⟨_, hupto⟩
    have hupto90 : b.toNat ≤ 90 := UInt8.le_iff_toNat_le.mp hupto
    omega

theorem utf8_ofList (s : List Char) : utf8 (String.ofList s) = s.flatMap String.utf8EncodeChar := by
  rw [utf8, String.toUTF8_eq_toByteArray, String.toByteArray_ofList, List.utf8Encode,
    List.toList_data_toByteArray]

theorem utf8_injective {s t : String} (h : utf8 s = utf8 t) : s = t :=
  String.toByteArray_inj.mp (ByteArray.ext (Array.toList_inj.mp h))

theorem length_utf8 (s : String) : (utf8 s).length = s.utf8ByteSize :=
  Array.length_toList

theorem map_lowerByte_utf8 (s : List Char) :
    (utf8 (String.ofList s)).map lowerByte = utf8 (String.ofList (s.map Char.toLower)) := by
  rw [utf8_ofList, utf8_ofList, List.map_flatMap, List.flatMap_map]
  exact List.flatMap_congr fun c _ => map_lowerByte_utf8EncodeChar c

theorem sameIgnoringCase_iff_bytes :
    sameIgnoringCase s keyword = true ↔
      (utf8 (String.ofList s)).map lowerByte = (utf8 (String.ofList keyword)).map lowerByte := by
  rw [sameIgnoringCase_iff, map_lowerByte_utf8, map_lowerByte_utf8]
  constructor
  · intro h
    rw [h]
  · intro h
    exact String.ofList_injective (utf8_injective h)

theorem take_utf8 {s : String} {head tail : List Char} (h : s.toList = head ++ tail) :
    (utf8 s).take (byteSize head) = utf8 (String.ofList head) := by
  have hs : utf8 s = utf8 (String.ofList head) ++ utf8 (String.ofList tail) := by
    have hlist : s = String.ofList (head ++ tail) := by rw [← h, String.ofList_toList]
    rw [hlist, utf8_ofList, utf8_ofList, utf8_ofList, List.flatMap_append]
  rw [hs, byteSize_eq, ← length_utf8, List.take_left' rfl]

theorem startsIgnoringCase_iff_bytes (s keyword : String) :
    startsIgnoringCase s.toList keyword.toList = true ↔ StartsInBytes s keyword := by
  have hsize : byteSize keyword.toList = keyword.utf8ByteSize := by
    rw [byteSize_eq, String.ofList_toList]
  rw [startsIgnoringCase_iff_exists, StartsInBytes, ← hsize, isBoundary_iff]
  constructor
  · rintro ⟨head, tail, hs, hsame⟩
    have hhead := byteSize_of_sameIgnoringCase hsame
    refine ⟨⟨head, tail, hs, hhead⟩, ?_⟩
    rw [← hhead, take_utf8 hs, sameIgnoringCase_iff_bytes.mp hsame, String.ofList_toList]
  · rintro ⟨⟨head, tail, hs, hhead⟩, hbytes⟩
    rw [← hhead, take_utf8 hs] at hbytes
    refine ⟨head, tail, hs, sameIgnoringCase_iff_bytes.mpr ?_⟩
    rw [hbytes, String.ofList_toList]

end DbRoute.Text

namespace DbRoute.Scheme

variable {url : String} {scheme other : Scheme}

/-- The opening of the scheme, in small letters. -/
def lowerOpening (scheme : Scheme) : List Char := scheme.opening.toList.map Char.toLower

theorem eq_of_prefix_lowerOpening (h : lowerOpening scheme <+: lowerOpening other) :
    scheme = other := by
  revert h
  cases scheme <;> cases other <;> decide

theorem eq_of_common_start {s : List Char} (h : lowerOpening scheme <+: s)
    (hother : lowerOpening other <+: s) : scheme = other := by
  rcases List.prefix_or_prefix_of_prefix h hother with hp | hp
  · exact eq_of_prefix_lowerOpening hp
  · exact (eq_of_prefix_lowerOpening hp).symm

theorem mem_all (scheme : Scheme) : scheme ∈ all := by
  cases scheme <;> decide

/-- The scheme of a URL is the one whose opening it has, in whatever case. -/
theorem ofUrl?_eq_some_iff :
    ofUrl? url = some scheme ↔ lowerOpening scheme <+: url.toList.map Char.toLower := by
  constructor
  · intro h
    have hstarts := List.find?_some h
    exact Text.startsIgnoringCase_iff.mp hstarts
  · intro h
    have hstarts := Text.startsIgnoringCase_iff.mpr h
    -- Some scheme is found, and what opens the URL as this one does is this one.
    cases hfound : ofUrl? url with
    | none => exact absurd hstarts (List.find?_eq_none.mp hfound scheme (mem_all scheme))
    | some found =>
        have hother := List.find?_some hfound
        have hprefix := Text.startsIgnoringCase_iff.mp hother
        rw [eq_of_common_start hprefix h]

theorem ofUrl?_eq_some_iff_starts :
    ofUrl? url = some scheme ↔
      Text.startsIgnoringCase url.toList scheme.opening.toList = true := by
  rw [ofUrl?_eq_some_iff, Text.startsIgnoringCase_iff, lowerOpening]

theorem ofUrl?_eq_some_iff_exists :
    ofUrl? url = some scheme ↔
      ∃ opening rest, url.toList = opening ++ rest ∧
        Text.sameIgnoringCase opening scheme.opening.toList = true :=
  ofUrl?_eq_some_iff_starts.trans Text.startsIgnoringCase_iff_exists

/-- What the opening takes of the URL, in bytes or in characters. -/
theorem cutAt?_opening (h : ofUrl? url = some scheme) :
    Text.cutAt? scheme.opening.utf8ByteSize url.toList =
      some (url.toList.take scheme.opening.length, url.toList.drop scheme.opening.length) := by
  obtain ⟨head, tail, hurl, hsame⟩ := ofUrl?_eq_some_iff_exists.mp h
  have hlength : scheme.opening.length = head.length := by
    rw [Text.length_of_sameIgnoringCase hsame, String.length_toList]
  have hsize : scheme.opening.utf8ByteSize = Text.byteSize head := by
    rw [Text.byteSize_of_sameIgnoringCase hsame, Text.byteSize_eq, String.ofList_toList]
  rw [hurl, hlength, hsize, List.take_left' rfl, List.drop_left' rfl, Text.cutAt?_byteSize_append]

theorem ofUrl?_append (h : ofUrl? url = some scheme) (rest : String) :
    ofUrl? (url ++ rest) = some scheme := by
  rw [ofUrl?_eq_some_iff] at h ⊢
  rw [String.toList_append, List.map_append]
  exact h.trans (List.prefix_append _ _)

/-- How a text starts, and how a URL does. A text starts with a keyword if its first
characters are those of the keyword in some case, or what is the same, if its first
bytes are; it does not if the keyword ends inside one of its characters. A URL has
the scheme whose opening it starts with. That opening ends between two characters,
at the same place in bytes and in characters, the URL starts with no other opening,
and all this holds whatever follows. -/
theorem starts_in_bytes :
    (∀ s keyword : String,
      (Text.startsIgnoringCase s.toList keyword.toList = true ↔
        ∃ head tail, s.toList = head ++ tail ∧ List.Forall₂ Text.Alike head keyword.toList) ∧
      (Text.startsIgnoringCase s.toList keyword.toList = true ↔ Text.StartsInBytes s keyword) ∧
      (¬Text.IsBoundary s.toList keyword.utf8ByteSize →
        Text.startsIgnoringCase s.toList keyword.toList = false)) ∧
    ∀ (url : String) (scheme : Scheme),
      (ofUrl? url = some scheme ↔
        Text.startsIgnoringCase url.toList scheme.opening.toList = true) ∧
      (ofUrl? url = some scheme →
        Text.IsBoundary url.toList scheme.opening.utf8ByteSize ∧
        Text.cutAt? scheme.opening.utf8ByteSize url.toList =
          some (url.toList.take scheme.opening.length, url.toList.drop scheme.opening.length) ∧
        (∀ other, other ≠ scheme →
          Text.startsIgnoringCase url.toList other.opening.toList = false) ∧
        ∀ rest, ofUrl? (url ++ rest) = some scheme) := by
  constructor
  · intro s keyword
    have hbytes := Text.startsIgnoringCase_iff_bytes s keyword
    refine ⟨?_, hbytes, ?_⟩
    · simp only [Text.startsIgnoringCase_iff_exists, Text.sameIgnoringCase_iff_alike]
    · intro hcut
      rw [Bool.eq_false_iff]
      intro hstarts
      exact hcut (hbytes.mp hstarts).1
  · intro url scheme
    refine ⟨ofUrl?_eq_some_iff_starts, ?_⟩
    intro h
    have hcut := cutAt?_opening h
    refine ⟨Text.isBoundary_of_cutAt? hcut, hcut, ?_, ofUrl?_append h⟩
    intro other hother
    rw [Bool.eq_false_iff]
    intro hstarts
    have hsame := (ofUrl?_eq_some_iff_starts.mpr hstarts).symm.trans h
    exact hother (Option.some.inj hsame)

/-- A keyword with a letter beyond ASCII, one that ends inside a character, and an
opening in mixed case with such a character behind it. -/
theorem starts_in_bytes_mixed :
    (∃ head tail, "STRAßE→x".toList = head ++ tail ∧
      List.Forall₂ Text.Alike head "straße".toList) ∧
    Text.StartsInBytes "STRAßE→x" "straße" ∧
    ¬Text.StartsInBytes "é" "e" ∧
    ofUrl? "MySQL:MXJ://é/db" = some launched ∧
    Text.IsBoundary "MySQL:MXJ://é/db".toList 12 ∧
    Text.startsIgnoringCase "MySQL:MXJ://é/db".toList "mysql://".toList = false := by
  obtain ⟨hstarts, hschemes⟩ := starts_in_bytes
  obtain ⟨hcharacters, hbytes, _⟩ := hstarts "STRAßE→x" "straße"
  obtain ⟨_, hbytesInside, hinside⟩ := hstarts "é" "e"
  have hstreet : Text.startsIgnoringCase "STRAßE→x".toList "straße".toList = true := by decide
  have hcut : Text.cutAt? "e".utf8ByteSize "é".toList = none := by decide
  have hnot := hinside (Text.cutAt?_eq_none_iff.mp hcut)
  have hlaunched : ofUrl? "MySQL:MXJ://é/db" = some launched := by decide +kernel
  obtain ⟨hboundary, _, hothers, _⟩ := (hschemes "MySQL:MXJ://é/db" launched).2 hlaunched
  refine ⟨hcharacters.mp hstreet, hbytes.mp hstreet, ?_, hlaunched, hboundary,
    hothers plain (by decide)⟩
  intro hin
  exact Bool.false_ne_true (hnot.symm.trans (hbytesInside.mpr hin))

end DbRoute.Scheme
