import DbRoute.Proofs.Text.Boundary
import DbRoute.Text

/-!
# Keywords in any case

A letter takes one byte in either case, so that the case of letters changes
nothing about the size of a text. Therefore a text starts with a keyword if and
only if the keyword in small letters is a prefix of the text in small letters.
-/

namespace DbRoute.Text

variable {c : Char} {s keyword : List Char}

theorem toNat_toLower (c : Char) :
    c.toLower.toNat = if 65 ≤ c.toNat ∧ c.toNat ≤ 90 then c.toNat + 32 else c.toNat := by
  by_cases h : c.val ≥ 'A'.val ∧ c.val ≤ 'Z'.val
  · have hfrom : 65 ≤ c.toNat := UInt32.le_iff_toNat_le.mp h.1
    have hupto : c.toNat ≤ 90 := UInt32.le_iff_toNat_le.mp h.2
    have hsum : c.toLower.toNat = (c.toNat + 32) % 2 ^ 32 :=
      (congrArg Char.toNat (dif_pos h)).trans (UInt32.toNat_add _ _)
    rw [if_pos ⟨hfrom, hupto⟩, hsum]
    omega
  · have hlower : c.toLower = c := dif_neg h
    rw [hlower, if_neg]
    rintro ⟨hfrom, hupto⟩
    exact h ⟨UInt32.le_iff_toNat_le.mpr hfrom, UInt32.le_iff_toNat_le.mpr hupto⟩

/-- A small letter and its capital have the same capital. -/
theorem toUpper_toLower (c : Char) : c.toLower.toUpper = c.toUpper := by
  by_cases h : c.val ≥ 'A'.val ∧ c.val ≤ 'Z'.val
  · have hfrom : 65 ≤ c.toNat := UInt32.le_iff_toNat_le.mp h.1
    have hupto : c.toNat ≤ 90 := UInt32.le_iff_toNat_le.mp h.2
    have hletters : ∀ n < 91, 65 ≤ n →
        (Char.ofNat n).toLower.toUpper = (Char.ofNat n).toUpper := by decide
    have hc := hletters c.toNat (Nat.lt_succ_of_le hupto) hfrom
    rwa [Char.ofNat_toNat] at hc
  · have hlower : c.toLower = c := dif_neg h
    rw [hlower]

theorem utf8Size_of_ascii (h : c.toNat < 128) : c.utf8Size = 1 :=
  Char.utf8Size_eq_one_iff.mpr (UInt32.le_iff_toNat_le.mpr (Nat.le_of_lt_succ h))

theorem utf8Size_toLower (c : Char) : c.toLower.utf8Size = c.utf8Size := by
  have hlower := toNat_toLower c
  split at hlower
  · rw [utf8Size_of_ascii (by omega), utf8Size_of_ascii (by omega)]
  · rw [Char.toNat_inj.mp hlower]

theorem byteSize_map_toLower (s : List Char) : byteSize (s.map Char.toLower) = byteSize s := by
  induction s with
  | nil => rfl
  | cons c s ih => rw [List.map_cons, byteSize_cons, byteSize_cons, utf8Size_toLower, ih]

theorem sameIgnoringCase_iff :
    sameIgnoringCase s keyword = true ↔ s.map Char.toLower = keyword.map Char.toLower :=
  beq_iff_eq

theorem map_toUpper_of_sameIgnoringCase (h : sameIgnoringCase s keyword = true) :
    s.map Char.toUpper = keyword.map Char.toUpper := by
  have hupper : ∀ t : List Char, t.map Char.toUpper = (t.map Char.toLower).map Char.toUpper := by
    intro t
    rw [List.map_map]
    exact List.map_congr_left fun c _ => (toUpper_toLower c).symm
  rw [hupper s, sameIgnoringCase_iff.mp h, ← hupper]

theorem length_of_sameIgnoringCase (h : sameIgnoringCase s keyword = true) :
    s.length = keyword.length := by
  have hlen := congrArg List.length (sameIgnoringCase_iff.mp h)
  rwa [List.length_map, List.length_map] at hlen

theorem byteSize_of_sameIgnoringCase (h : sameIgnoringCase s keyword = true) :
    byteSize s = byteSize keyword := by
  rw [← byteSize_map_toLower s, sameIgnoringCase_iff.mp h, byteSize_map_toLower]

/-- A text starts with a keyword in whatever case that it puts in front. -/
theorem startsIgnoringCase_append (h : sameIgnoringCase s keyword = true) (t : List Char) :
    startsIgnoringCase (s ++ t) keyword = true := by
  rw [startsIgnoringCase, ← byteSize_of_sameIgnoringCase h, cutAt?_byteSize_append]
  exact h

theorem startsIgnoringCase_iff_exists :
    startsIgnoringCase s keyword = true ↔
      ∃ head tail, s = head ++ tail ∧ sameIgnoringCase head keyword = true := by
  constructor
  · intro h
    unfold startsIgnoringCase at h
    split at h
    · next head tail hcut => exact ⟨head, tail, (cutAt?_eq_some_iff.mp hcut).1, h⟩
    · cases h
  · rintro ⟨head, tail, rfl, hsame⟩
    exact startsIgnoringCase_append hsame tail

theorem startsIgnoringCase_iff :
    startsIgnoringCase s keyword = true ↔
      keyword.map Char.toLower <+: s.map Char.toLower := by
  rw [startsIgnoringCase_iff_exists]
  constructor
  · rintro ⟨head, tail, rfl, hsame⟩
    rw [List.map_append, sameIgnoringCase_iff.mp hsame]
    exact List.prefix_append _ _
  · rintro ⟨rest, hrest⟩
    obtain ⟨head, tail, hs, hhead, _⟩ := List.map_eq_append_iff.mp hrest.symm
    exact ⟨head, tail, hs, sameIgnoringCase_iff.mpr hhead⟩

theorem startsIgnoringCase_of_prefix {t : List Char} (ht : s <+: t)
    (h : startsIgnoringCase s keyword = true) : startsIgnoringCase t keyword = true := by
  rw [startsIgnoringCase_iff] at h ⊢
  exact h.trans (ht.map Char.toLower)

/-- A character that no keyword has ends every keyword in front of it. -/
theorem startsIgnoringCase_of_append_cons (hc : c.toLower ∉ keyword.map Char.toLower)
    {t : List Char} (h : startsIgnoringCase (s ++ c :: t) keyword = true) :
    startsIgnoringCase s keyword = true := by
  rw [startsIgnoringCase_iff] at h ⊢
  rw [List.map_append, List.map_cons] at h
  by_cases hlen : (keyword.map Char.toLower).length ≤ (s.map Char.toLower).length
  · exact List.prefix_of_prefix_length_le h (List.prefix_append _ _) hlen
  · -- Otherwise the keyword reaches over the character.
    have hover : s.map Char.toLower ++ [c.toLower] <+: keyword.map Char.toLower := by
      refine List.prefix_of_prefix_length_le ⟨t.map Char.toLower, by simp⟩ h ?_
      rw [List.length_append, List.length_singleton]
      omega
    exact absurd (hover.subset (by simp)) hc

end DbRoute.Text
