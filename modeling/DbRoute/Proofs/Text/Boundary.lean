import DbRoute.Text

/-!
# Character boundaries

The boundaries of a text are the byte offsets at which its UTF-8 form can be cut
into the forms of two texts. The sizes of the front parts are boundaries, its
two ends among them, and there are no others.
-/

namespace DbRoute.Text

variable {n : Nat} {s head tail : List Char}

/-- The offset is a valid position in the bytes of the text. -/
def IsBoundary (s : List Char) (n : Nat) : Prop :=
  String.Pos.Raw.IsValid (String.ofList s) ⟨n⟩

theorem byteSize_eq (s : List Char) : byteSize s = (String.ofList s).utf8ByteSize := by
  induction s with
  | nil => rfl
  | cons c s ih =>
      rw [byteSize_cons, ih, ← List.singleton_append, String.ofList_append,
        String.utf8ByteSize_append, ← String.singleton_eq_ofList, String.utf8ByteSize_singleton]

theorem cutAt?_eq_some_iff :
    cutAt? n s = some (head, tail) ↔ s = head ++ tail ∧ byteSize head = n := by
  constructor
  · intro h
    induction s generalizing n head with
    | nil =>
        rw [cutAt?] at h
        split at h
        · next hn =>
          cases h
          exact ⟨rfl, hn.symm⟩
        · cases h
    | cons c s ih =>
        rw [cutAt?] at h
        split at h
        · next hn =>
          cases h
          exact ⟨rfl, hn.symm⟩
        · split at h
          · next hc =>
            obtain ⟨⟨front, behind⟩, hrest, hhalves⟩ := Option.map_eq_some_iff.mp h
            obtain ⟨rfl, rfl⟩ := Prod.mk.inj hhalves
            obtain ⟨rfl, hsize⟩ := ih hrest
            refine ⟨rfl, ?_⟩
            rw [byteSize_cons, hsize]
            omega
          · cases h
  · rintro ⟨rfl, rfl⟩
    exact cutAt?_byteSize_append head tail

theorem isBoundary_iff :
    IsBoundary s n ↔ ∃ head tail, s = head ++ tail ∧ byteSize head = n := by
  rw [IsBoundary, String.Pos.Raw.isValid_ofList]
  constructor
  · rintro ⟨i, hi⟩
    exact ⟨s.take i, s.drop i, (List.take_append_drop i s).symm, (byteSize_eq _).trans hi.symm⟩
  · rintro ⟨head, tail, rfl, rfl⟩
    exact ⟨head.length, by rw [List.take_left' rfl]; exact byteSize_eq head⟩

/-- A text cannot be cut where no character ends. -/
theorem cutAt?_eq_none_iff : cutAt? n s = none ↔ ¬IsBoundary s n := by
  rw [isBoundary_iff, Option.eq_none_iff_forall_ne_some]
  constructor
  · rintro h ⟨head, tail, hcut⟩
    exact h (head, tail) (cutAt?_eq_some_iff.mpr hcut)
  · rintro h ⟨head, tail⟩ hcut
    exact h ⟨head, tail, cutAt?_eq_some_iff.mp hcut⟩

theorem isBoundary_of_cutAt? {halves : List Char × List Char} (h : cutAt? n s = some halves) :
    IsBoundary s n :=
  isBoundary_iff.mpr ⟨_, _, cutAt?_eq_some_iff.mp h⟩

end DbRoute.Text
