import DbRoute.Proofs.Text.Boundary
import DbRoute.Proofs.Text.Tokens

/-!
# The first delimiter outside quotation

What a scan for a delimiter finds is said without a scan. A text is closed if it
is made of plain characters and of marks with a text between them that does not
hold the mark. The scan finds the first delimiter with a closed text in front of
it. It stands between two character boundaries, and a split goes on behind it
with a text that is shorter than before.
-/

namespace DbRoute.Text

variable {c d q : Char} {p : Nat} {s a b : List Char}

/-! ## Closed texts -/

/-- All marks are closed. Only the same mark closes one, and the other kind is plain
text in between. -/
inductive Closed : List Char → Prop
  | nil : Closed []
  | plain {c : Char} {s : List Char} : isQuote c = false → Closed s → Closed (c :: s)
  | quoted {q : Char} {inside s : List Char} : isQuote q = true → q ∉ inside → Closed s →
      Closed (q :: inside ++ q :: s)

/-- An open mark is closed where it stands for the first time. -/
theorem exists_of_markAfter_some (h : markAfter (some q) s = none) :
    ∃ inside rest, s = inside ++ q :: rest ∧ q ∉ inside ∧ markAfter none rest = none := by
  induction s with
  | nil => cases h
  | cons c s ih =>
      rw [markAfter_cons] at h
      by_cases hc : c = q
      · subst hc
        rw [advance_closing] at h
        exact ⟨[], s, rfl, List.not_mem_nil, h⟩
      · rw [advance_inside hc] at h
        obtain ⟨inside, rest, rfl, hinside, hrest⟩ := ih h
        refine ⟨c :: inside, rest, rfl, ?_, hrest⟩
        rw [List.mem_cons]
        rintro (rfl | hmem)
        · exact hc rfl
        · exact hinside hmem

theorem Closed.markAfter_eq_none (h : Closed s) : markAfter none s = none := by
  induction h with
  | nil => rfl
  | plain hc _ ih => rw [markAfter_cons, advance_plain hc, ih]
  | @quoted q inside s hq hinside _ ih =>
      have hsealed : Sealed q (q :: inside ++ [q]) := .of_quoted q hq hinside
      rw [List.append_cons, markAfter_append, hsealed.closed, ih]

theorem closed_of_markAfter : ∀ s : List Char, markAfter none s = none → Closed s
  | [], _ => .nil
  | c :: s, h => by
      rw [markAfter_cons] at h
      cases hc : isQuote c with
      | false =>
          rw [advance_plain hc] at h
          exact .plain hc (closed_of_markAfter s h)
      | true =>
          rw [advance_opening hc] at h
          obtain ⟨inside, rest, hs, hinside, hrest⟩ := exists_of_markAfter_some h
          have hlt : rest.length < (c :: s).length := by
            rw [hs, List.length_cons, List.length_append, List.length_cons]
            omega
          rw [hs]
          exact .quoted hc hinside (closed_of_markAfter rest hrest)
termination_by s => s.length

theorem closed_iff : Closed s ↔ markAfter none s = none :=
  ⟨Closed.markAfter_eq_none, closed_of_markAfter s⟩

/-! ## The first delimiter behind a closed text -/

/-- The text is taken apart at the first of its delimiters that have a closed text in
front of them. -/
structure IsFirstCut (d : Char) (s a b : List Char) : Prop where
  joined : s = a ++ d :: b
  closed : Closed a
  first : ∀ a' b', s = a' ++ d :: b' → Closed a' → a.length ≤ a'.length

theorem eq_append_of_getElem? {i : Nat} (h : s[i]? = some c) :
    s = s.take i ++ c :: s.drop (i + 1) := by
  obtain ⟨hlt, hc⟩ := List.getElem?_eq_some_iff.mp h
  rw [← hc, ← List.drop_eq_getElem_cons hlt, List.take_append_drop]

/-- Without a cut, a text has no delimiter behind a closed text. -/
theorem cut?_eq_none_iff_not_closed (hd : isQuote d = false) :
    cut? d s = none ↔ ∀ a b, s = a ++ d :: b → ¬Closed a := by
  rw [cut?, cutFrom?_eq_none_iff hd]
  constructor
  · rintro h a b rfl hclosed
    refine h a.length (by simp) ?_
    rw [List.take_left' rfl]
    exact hclosed.markAfter_eq_none
  · intro h i hi hclosed
    exact h _ _ (eq_append_of_getElem? hi) (closed_iff.mpr hclosed)

theorem isFirstCut_iff (hd : isQuote d = false) :
    IsFirstCut d s a b ↔ s = a ++ d :: b ∧ Sealed d a := by
  constructor
  · intro h
    refine ⟨h.joined, h.closed.markAfter_eq_none, ?_⟩
    rw [cut?_eq_none_iff_not_closed hd]
    rintro front behind rfl hclosed
    -- A delimiter in the front part would be an earlier one.
    have hs : s = front ++ d :: (behind ++ d :: b) := by
      rw [h.joined, List.append_assoc, List.cons_append]
    have hle := h.first _ _ hs hclosed
    rw [List.length_append, List.length_cons] at hle
    omega
  · rintro ⟨rfl, ha⟩
    refine ⟨rfl, closed_iff.mpr ha.closed, ?_⟩
    intro front behind hs hclosed
    by_contra hlt
    have hwhole : front ++ [d] <+: a ++ d :: b := by
      rw [hs]
      exact ⟨behind, by rw [List.append_assoc, List.singleton_append]⟩
    have hprefix : front ++ [d] <+: a := by
      apply List.prefix_of_prefix_length_le hwhole (List.prefix_append _ _)
      rw [List.length_append, List.length_singleton]
      omega
    obtain ⟨rest, hrest⟩ := hprefix
    rw [List.append_assoc, List.singleton_append] at hrest
    exact (cut?_eq_none_iff_not_closed hd).mp ha.uncut front rest hrest.symm hclosed

theorem cut?_eq_some_iff (hd : isQuote d = false) :
    cut? d s = some (a, b) ↔ IsFirstCut d s a b := by
  rw [isFirstCut_iff hd]
  constructor
  · intro h
    exact ⟨eq_of_cutFrom? h, sealed_of_cut? h⟩
  · rintro ⟨rfl, ha⟩
    exact ha.cut?_append hd b

theorem cut?_of_isQuote (hd : isQuote d = true) (s : List Char) : cut? d s = none := by
  cases h : cut? d s with
  | none => rfl
  | some sides =>
      obtain ⟨hplain, _⟩ := front_of_cutFrom? h
      exact absurd (hplain.symm.trans hd) Bool.false_ne_true

/-! ## Its offset -/

theorem cutOffset?_eq_some :
    cutOffset? d s = some p ↔ ∃ a b, cut? d s = some (a, b) ∧ byteSize a = p := by
  rw [cutOffset?, Option.map_eq_some_iff, Prod.exists]

theorem cutOffset?_eq_none : cutOffset? d s = none ↔ cut? d s = none :=
  Option.map_eq_none_iff

/-- The offset takes the text apart in front of the delimiter and behind it, and
a split goes on with a shorter text. -/
structure Slices (d : Char) (s : List Char) (p : Nat) (a b : List Char) : Prop where
  front : cutAt? p s = some (a, d :: b)
  behind : cutAt? (p + d.utf8Size) s = some (a ++ [d], b)
  shorter : byteSize b < byteSize s
  goes_on : tokens d s = a :: tokens d b

theorem slices_of_cut? (h : cut? d s = some (a, b)) : Slices d s (byteSize a) a b := by
  have hs : s = a ++ d :: b := eq_of_cutFrom? h
  obtain ⟨hd, _⟩ := front_of_cutFrom? h
  constructor
  · rw [hs]
    exact cutAt?_byteSize_append a (d :: b)
  · rw [cutAt?_eq_some_iff, hs]
    exact ⟨List.append_cons _ _ _, by simp⟩
  · have hpos := Char.utf8Size_pos d
    rw [hs, byteSize_append, byteSize_cons]
    omega
  · rw [hs]
    exact (sealed_of_cut? h).tokens_append hd b

/-- What the offset of a delimiter is. For a delimiter that is no mark, it is the
size of the text in front of the first delimiter with a closed text in front of it,
and there is none if no delimiter has a closed text in front of it. The text can be
sliced on both sides of the delimiter. A split takes the first slice and goes on
with the last, which is shorter, and without an offset it ends. For a mark there is
never an offset. -/
theorem cutOffset?_exact (d : Char) (s : List Char) :
    (isQuote d = false →
      (∀ p, cutOffset? d s = some p ↔ ∃ a b, IsFirstCut d s a b ∧ byteSize a = p) ∧
      (cutOffset? d s = none ↔ ¬∃ a b, IsFirstCut d s a b) ∧
      (cutOffset? d s = none ↔ ∀ a b, s = a ++ d :: b → ¬Closed a)) ∧
    (∀ p, cutOffset? d s = some p →
      IsBoundary s p ∧ IsBoundary s (p + d.utf8Size) ∧ ∃ a b, Slices d s p a b) ∧
    (cutOffset? d s = none → tokens d s = if s = [] then [] else [s]) ∧
    (isQuote d = true → cutOffset? d s = none) := by
  refine ⟨?_, ?_, ?_, ?_⟩
  · intro hd
    have hsome : ∀ p, cutOffset? d s = some p ↔ ∃ a b, IsFirstCut d s a b ∧ byteSize a = p := by
      intro p
      simp only [cutOffset?_eq_some, cut?_eq_some_iff hd]
    refine ⟨hsome, ?_, cutOffset?_eq_none.trans (cut?_eq_none_iff_not_closed hd)⟩
    rw [Option.eq_none_iff_forall_ne_some]
    constructor
    · rintro h ⟨a, b, hfirst⟩
      exact h _ ((hsome _).mpr ⟨a, b, hfirst, rfl⟩)
    · intro h p hp
      obtain ⟨a, b, hfirst, _⟩ := (hsome p).mp hp
      exact h ⟨a, b, hfirst⟩
  · intro p hp
    obtain ⟨a, b, hcut, rfl⟩ := cutOffset?_eq_some.mp hp
    have hslices := slices_of_cut? hcut
    exact ⟨isBoundary_of_cutAt? hslices.front, isBoundary_of_cutAt? hslices.behind, a, b, hslices⟩
  · intro h
    exact tokens_of_uncut (cutOffset?_eq_none.mp h)
  · intro hd
    exact cutOffset?_eq_none.mpr (cut?_of_isQuote hd s)

/-- An arrow in marks that hold the other mark, an arrow outside, and one behind a
mark that is left open. -/
def arrows : List Char := "é'\"→'→x\"→".toList

/-- The second arrow is found, and behind it there is none. -/
theorem cutOffset?_exact_arrows :
    ∃ a b, IsFirstCut '→' arrows a b ∧ byteSize a = 8 ∧ IsBoundary arrows 8 ∧
      IsBoundary arrows 11 ∧ (∀ a' b', "x\"→".toList = a' ++ '→' :: b' → ¬Closed a') ∧
      cutOffset? '"' arrows = none := by
  have hoffset : cutOffset? '→' arrows = some 8 := by decide
  have hlast : cutOffset? '→' "x\"→".toList = none := by decide
  obtain ⟨hexact, hslices, _⟩ := cutOffset?_exact '→' arrows
  obtain ⟨hexactLast, _⟩ := cutOffset?_exact '→' "x\"→".toList
  obtain ⟨_, _, _, hmark⟩ := cutOffset?_exact '"' arrows
  obtain ⟨a, b, hfirst, hsize⟩ := ((hexact (by decide)).1 8).mp hoffset
  obtain ⟨hfront, hbehind, _⟩ := hslices 8 hoffset
  exact ⟨a, b, hfirst, hsize, hfront, hbehind, (hexactLast (by decide)).2.2.mp hlast,
    hmark (by decide)⟩

end DbRoute.Text
