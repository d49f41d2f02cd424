import DbRoute.Text
import Mathlib.Data.List.TakeDrop
import Mathlib.Data.List.TakeWhile

/-!
# Texts without a delimiter

A text that does not hold the delimiter ends at the first one behind it, so
that such texts, joined by delimiters, are the pieces of what they make up.
-/

namespace DbRoute.Text

variable {c d : Char} {chars fewer s t : List Char}

/-- None of the characters occurs in the text. -/
def FreeOf (chars s : List Char) : Prop := ∀ c ∈ s, c ∉ chars

instance (chars s : List Char) : Decidable (FreeOf chars s) :=
  List.decidableBAll (· ∉ chars) s

theorem FreeOf.not_mem (h : FreeOf chars s) (hc : c ∈ chars) : c ∉ s :=
  fun hs => h c hs hc

theorem FreeOf.mono (h : FreeOf chars s) (hsub : fewer ⊆ chars) : FreeOf fewer s :=
  fun c hc hmem => h c hc (hsub hmem)

theorem FreeOf.subset (h : FreeOf chars s) (hsub : t ⊆ s) : FreeOf chars t :=
  fun c hc => h c (hsub hc)

theorem FreeOf.append (hs : FreeOf chars s) (ht : FreeOf chars t) : FreeOf chars (s ++ t) :=
  fun c hc => (List.mem_append.mp hc).elim (hs c) (ht c)

/-! ## The first delimiter -/

theorem span_append (h : d ∉ s) (t : List Char) :
    (s ++ d :: t).span (· != d) = (s, d :: t) := by
  have hs : ∀ c ∈ s, (c != d) = true := fun c hc => bne_iff_ne.mpr fun e => h (e ▸ hc)
  rw [List.span_eq_takeWhile_dropWhile, List.takeWhile_append_of_pos hs,
    List.dropWhile_append_of_pos hs]
  simp

theorem span_eq_self (h : d ∉ s) : s.span (· != d) = (s, []) := by
  have hs : ∀ c ∈ s, (c != d) = true := fun c hc => bne_iff_ne.mpr fun e => h (e ▸ hc)
  rw [List.span_eq_takeWhile_dropWhile, List.takeWhile_eq_self_iff.mpr hs,
    List.dropWhile_eq_nil_iff.mpr hs]

/-! ## Pieces -/

theorem toList_joined {mark : String} (hmark : mark.toList = [d]) (front back : String) :
    (front ++ mark ++ back).toList = front.toList ++ d :: back.toList := by
  rw [String.toList_append, String.toList_append, hmark, List.append_assoc, List.singleton_append]

theorem not_mem_intercalate (hc : c ≠ d) {ps : List (List Char)}
    (h : ∀ p ∈ ps, c ∉ p) : c ∉ [d].intercalate ps := by
  induction ps with
  | nil => exact List.not_mem_nil
  | cons p ps ih =>
      obtain ⟨hp, hps⟩ := List.forall_mem_cons.mp h
      cases ps with
      | nil => rwa [List.intercalate_singleton]
      | cons next ps =>
          rw [List.intercalate_cons_cons]
          simp only [List.mem_append, List.mem_singleton]
          rintro ((hmem | rfl) | hmem)
          · exact hp hmem
          · exact hc rfl
          · exact ih hps hmem

theorem pieces_eq_splitOn (d : Char) (s : List Char) : pieces d s = s.splitOn d := by
  induction s with
  | nil => exact (List.splitOn_nil d).symm
  | cons c s ih =>
      rw [pieces, List.splitOn_cons_eq_if_modifyHead, ih]
      by_cases hc : c = d
      · rw [if_pos hc, if_pos (beq_iff_eq.mpr hc)]
      · rw [if_neg hc, if_neg (mt beq_iff_eq.mp hc)]
        cases hrest : s.splitOn d with
        | nil => exact absurd hrest (List.splitOn_ne_nil d s)
        | cons piece pieces => rfl

theorem pieces_append (d : Char) (s t : List Char) :
    pieces d (s ++ d :: t) = pieces d s ++ pieces d t := by
  simp only [pieces_eq_splitOn, List.splitOn_append_cons_self]

theorem pieces_eq_self (h : d ∉ s) : pieces d s = [s] := by
  rw [pieces_eq_splitOn, List.splitOn_eq_singleton h]

theorem pieces_intercalate {ps : List (List Char)} (hne : ps ≠ []) (h : ∀ p ∈ ps, d ∉ p) :
    pieces d ([d].intercalate ps) = ps := by
  rw [pieces_eq_splitOn, List.splitOn_intercalate d h hne]

theorem intercalate_pieces (d : Char) (s : List Char) : [d].intercalate (pieces d s) = s := by
  rw [pieces_eq_splitOn, List.intercalate_splitOn]

theorem pieces_ne_nil (d : Char) (s : List Char) : pieces d s ≠ [] := by
  rw [pieces_eq_splitOn]
  exact List.splitOn_ne_nil d s

theorem not_mem_of_mem_pieces {p : List Char} (h : p ∈ pieces d s) : d ∉ p := by
  induction s generalizing p with
  | nil =>
      rw [List.mem_singleton.mp h]
      exact List.not_mem_nil
  | cons c s ih =>
      rw [pieces] at h
      split at h
      · rcases List.mem_cons.mp h with rfl | h
        · exact List.not_mem_nil
        · exact ih h
      · next hc =>
        cases hrest : pieces d s with
        | nil => exact absurd hrest (pieces_ne_nil d s)
        | cons first rest =>
            rw [hrest] at h ih
            rcases List.mem_cons.mp h with rfl | h
            · rw [List.mem_cons, not_or]
              exact ⟨Ne.symm hc, ih List.mem_cons_self⟩
            · exact ih (List.mem_cons_of_mem _ h)

end DbRoute.Text
