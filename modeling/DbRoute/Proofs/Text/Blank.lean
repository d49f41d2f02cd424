import DbRoute.Proofs.Text.AsciiCase
import DbRoute.Proofs.Text.Pieces
import DbRoute.Text
import Mathlib.Data.List.DropRight

/-!
# Trimming

A text that neither starts nor ends with a blank is its own trim, and there is
no other. Blanks added in front or behind are trimmed away, while those in front
of a text that is not blank throughout belong to it whatever follows.
-/

namespace DbRoute.Text

variable {s t : List Char}

theorem dropWhile_isBlank_eq_self :
    s.dropWhile isBlank = s ↔ ∀ c ∈ s.head?, isBlank c = false := by
  cases s with
  | nil => simp
  | cons c s =>
      rw [List.dropWhile_eq_self_iff]
      simp

theorem trimStart_eq_self : trimStart s = s ↔ ∀ c ∈ s.head?, isBlank c = false :=
  dropWhile_isBlank_eq_self

theorem trimEnd_eq_self : trimEnd s = s ↔ ∀ c ∈ s.getLast?, isBlank c = false := by
  rw [trimEnd, ← List.head?_reverse, ← dropWhile_isBlank_eq_self]
  exact List.reverse_eq_iff

theorem length_trimStart_le (s : List Char) : (trimStart s).length ≤ s.length :=
  (List.dropWhile_sublist _).length_le

theorem length_trimEnd_le (s : List Char) : (trimEnd s).length ≤ s.length := by
  rw [trimEnd, List.length_reverse]
  exact (List.dropWhile_sublist _).length_le.trans (List.length_reverse).le

theorem trim_eq_self :
    trim s = s ↔ (∀ c ∈ s.head?, isBlank c = false) ∧ ∀ c ∈ s.getLast?, isBlank c = false := by
  rw [← trimStart_eq_self, ← trimEnd_eq_self, trim]
  constructor
  · intro h
    have hlen : (trimStart s).length = s.length := by
      refine Nat.le_antisymm (length_trimStart_le s) ?_
      calc s.length = (trimEnd (trimStart s)).length := by rw [h]
        _ ≤ (trimStart s).length := length_trimEnd_le _
    have hstart : trimStart s = s := (List.dropWhile_sublist _).eq_of_length hlen
    exact ⟨hstart, by rwa [hstart] at h⟩
  · rintro ⟨hstart, hend⟩
    rw [hstart, hend]

theorem trim_eq_self_of_forall (h : ∀ c ∈ s, isBlank c = false) : trim s = s :=
  trim_eq_self.mpr
    ⟨fun c hc => h c (List.mem_of_mem_head? hc), fun c hc => h c (List.mem_of_getLast? hc)⟩

theorem isBlank_toLower (c : Char) : isBlank c.toLower = isBlank c := by
  have hlower := toNat_toLower c
  split at hlower
  · -- No letter is a blank.
    have hblank : isBlank c = false := by
      simp [isBlank]
      omega
    rw [hblank]
    simp [isBlank]
    omega
  · rw [Char.toNat_inj.mp hlower]

theorem allBlank_append (s t : List Char) : allBlank (s ++ t) = (allBlank s && allBlank t) :=
  List.all_append

theorem freeOf_of_allBlank {chars : List Char} (hchars : ∀ c ∈ chars, isBlank c = false)
    (h : allBlank s = true) : FreeOf chars s := by
  intro c hc hmem
  have hblank : isBlank c = true := List.all_eq_true.mp h c hc
  exact Bool.false_ne_true ((hchars c hmem).symm.trans hblank)

/-- What is joined to a text that is not blank is not blank either. -/
theorem allBlank_intercalate {d : Char} {ps : List (List Char)} (h : allBlank s = false) :
    allBlank ([d].intercalate (s :: ps)) = false := by
  cases ps with
  | nil => rwa [List.intercalate_singleton]
  | cons next ps =>
      rw [List.intercalate_cons_cons, List.append_assoc, allBlank_append, h, Bool.false_and]

theorem trimStart_append (h : allBlank s = false) (t : List Char) :
    trimStart (s ++ t) = trimStart s ++ t := by
  rw [trimStart, trimStart, List.dropWhile_append, if_neg]
  rw [List.isEmpty_iff, List.dropWhile_eq_nil_iff, ← List.all_eq_true]
  exact fun hall => Bool.noConfusion (hall.symm.trans h)

/-- Blanks behind a text that ends in none belong to what follows it. -/
theorem trimEnd_append (h : ∀ c ∈ s.getLast?, isBlank c = false) (t : List Char) :
    trimEnd (s ++ t) = s ++ trimEnd t := by
  have hs : s.reverse.dropWhile isBlank = s.reverse := by
    rw [dropWhile_isBlank_eq_self, List.head?_reverse]
    exact h
  rw [trimEnd, trimEnd, List.reverse_append, List.dropWhile_append]
  split
  · next hnil => rw [List.isEmpty_iff.mp hnil, hs, List.reverse_reverse, List.reverse_nil, List.append_nil]
  · rw [List.reverse_append, List.reverse_reverse]

theorem trimStart_of_allBlank (h : allBlank s = true) : trimStart s = [] :=
  List.dropWhile_eq_nil_iff.mpr (List.all_eq_true.mp h)

theorem trim_blank_append (h : allBlank s = true) (t : List Char) : trim (s ++ t) = trim t := by
  rw [trim, trim, trimStart, trimStart, List.dropWhile_append_of_pos (List.all_eq_true.mp h)]

theorem trimEnd_append_blank (s : List Char) (h : allBlank t = true) :
    trimEnd (s ++ t) = trimEnd s := by
  have hblank : ∀ c ∈ t.reverse, isBlank c = true := by
    intro c hc
    exact List.all_eq_true.mp h c (List.mem_reverse.mp hc)
  rw [trimEnd, trimEnd, List.reverse_append, List.dropWhile_append_of_pos hblank]

theorem trim_append_blank (s : List Char) (h : allBlank t = true) : trim (s ++ t) = trim s := by
  cases hs : allBlank s with
  | true =>
      have hall : allBlank (s ++ t) = true := by rw [allBlank_append, hs, h]; rfl
      rw [trim, trim, trimStart_of_allBlank hall, trimStart_of_allBlank hs]
  | false => rw [trim, trim, trimStart_append hs, trimEnd_append_blank _ h]

/-- What trimming takes away are blanks in front and behind. -/
theorem exists_blanks_around_trim (s : List Char) :
    ∃ before behind, allBlank before = true ∧ allBlank behind = true ∧
      s = before ++ trim s ++ behind := by
  have hend : trim s ++ ((trimStart s).reverse.takeWhile isBlank).reverse = trimStart s := by
    rw [trim, trimEnd, ← List.reverse_append, List.takeWhile_append_dropWhile, List.reverse_reverse]
  refine ⟨s.takeWhile isBlank, ((trimStart s).reverse.takeWhile isBlank).reverse, ?_, ?_, ?_⟩
  · exact List.all_takeWhile
  · rw [allBlank, List.all_reverse]
    exact List.all_takeWhile
  · rw [List.append_assoc, hend, trimStart, List.takeWhile_append_dropWhile]

/-- Wide spaces are blanks, and a control character is none. -/
example : trim "\u2003 a b\u3000\n".toList = "a b".toList ∧
    trim "\x1ca".toList = "\x1ca".toList := by decide

/-- Whatever stands behind it, trimming stops at a character that is no blank. -/
theorem trim_cons {c : Char} (hc : isBlank c = false) (s : List Char) :
    trim (c :: s) = c :: trimEnd s := by
  have hstart : trimStart (c :: s) = c :: s := by
    rw [trimStart_eq_self]
    rintro _ ⟨⟩
    exact hc
  have hend : ∀ d ∈ [c].getLast?, isBlank d = false := by
    rintro _ ⟨⟩
    exact hc
  rw [trim, hstart]
  exact trimEnd_append hend s

/-- Trimming stops at a character that is no blank. -/
theorem trimStart_append_cons {c : Char} (hc : isBlank c = false) (s t : List Char) :
    trimStart (s ++ c :: t) = trimStart s ++ c :: t := by
  cases hs : allBlank s with
  | true =>
      have hstop : (c :: t).dropWhile isBlank = c :: t := by simp [hc]
      rw [trimStart_of_allBlank hs, trimStart,
        List.dropWhile_append_of_pos (List.all_eq_true.mp hs), hstop, List.nil_append]
  | false => exact trimStart_append hs _

/-- Between two texts with no blanks around them, blanks count. -/
theorem trim_append_eq_self (hs : trim s = s) (hsne : s ≠ []) (ht : trim t = t) (htne : t ≠ [])
    (between : List Char) : trim (s ++ between ++ t) = s ++ between ++ t := by
  rw [trim_eq_self] at hs ht ⊢
  constructor
  · rw [List.append_assoc, List.head?_append_of_ne_nil _ hsne]
    exact hs.1
  · rw [List.getLast?_append_of_ne_nil _ htne]
    exact ht.2

theorem trimStart_subset (s : List Char) : trimStart s ⊆ s :=
  (List.dropWhile_sublist _).subset

theorem trimEnd_subset (s : List Char) : trimEnd s ⊆ s := by
  intro c hc
  have hrev : c ∈ s.reverse.dropWhile isBlank := List.mem_reverse.mp hc
  exact List.mem_reverse.mp ((List.dropWhile_sublist _).subset hrev)

theorem mem_dropWhile_isBlank {c : Char} (hc : isBlank c = false) (h : c ∈ s) :
    c ∈ s.dropWhile isBlank := by
  rw [← List.takeWhile_append_dropWhile (p := isBlank) (l := s), List.mem_append] at h
  rcases h with h | h
  · exact absurd (List.mem_takeWhile_imp h) (Bool.eq_false_iff.mp hc)
  · exact h

/-- Trimming takes nothing but blanks away. -/
theorem mem_trim {c : Char} (hc : isBlank c = false) (h : c ∈ s) : c ∈ trim s := by
  have hstart : c ∈ trimStart s := mem_dropWhile_isBlank hc h
  exact List.mem_reverse.mpr (mem_dropWhile_isBlank hc (List.mem_reverse.mpr hstart))

end DbRoute.Text
