import DbRoute.Proofs.Text.Blank
import DbRoute.Text

/-!
# Sealed texts

A text is sealed for a delimiter if it closes every mark that it opens and has
no delimiter outside quotation. Texts in marks are sealed whatever they hold,
and so is whatever is put together from sealed texts. A split sees nothing of
the inside of a sealed text: joined by delimiters, sealed texts are the pieces
of what they make up.

What is added behind a text, a delimiter first, makes pieces of its own if the
text has closed its marks, and belongs to the last piece if it has not.
-/

namespace DbRoute.Text

variable {d q : Char} {mark : Option Char} {s t : List Char}

theorem markAfter_append (mark : Option Char) (s t : List Char) :
    markAfter mark (s ++ t) = markAfter (markAfter mark s) t :=
  List.foldl_append

theorem markAfter_cons (mark : Option Char) (c : Char) (s : List Char) :
    markAfter mark (c :: s) = markAfter (advance mark c) s := rfl

theorem isQuote_iff : isQuote q = true ↔ q = '"' ∨ q = '\'' := by
  simp [isQuote]

theorem isQuote_double : isQuote '"' = true := rfl

theorem isQuote_single : isQuote '\'' = true := rfl

theorem isBlank_of_isQuote (h : isQuote q = true) : isBlank q = false := by
  rcases isQuote_iff.mp h with rfl | rfl <;> rfl

theorem isCut_none (hd : isQuote d = false) : isCut none d d = true := by
  simp [isCut, hd]

/-! ## What one character does -/

theorem advance_plain (h : isQuote q = false) : advance none q = none :=
  if_neg (Bool.eq_false_iff.mp h)

theorem advance_opening (h : isQuote q = true) : advance none q = some q :=
  if_pos h

theorem advance_closing (q : Char) : advance (some q) q = none :=
  if_pos rfl

theorem advance_inside {c : Char} (h : c ≠ q) : advance (some q) c = some q :=
  if_neg h

/-! ## Scanning past a text without a cut -/

theorem cutFrom?_cons_eq_none {c : Char} (h : cutFrom? mark d (c :: s) = none) :
    isCut mark d c = false ∧ cutFrom? (advance mark c) d s = none := by
  rw [cutFrom?] at h
  split at h
  · cases h
  · next hcut => exact ⟨Bool.eq_false_iff.mpr hcut, Option.map_eq_none_iff.mp h⟩

theorem cutFrom?_append (h : cutFrom? mark d s = none) (t : List Char) :
    cutFrom? mark d (s ++ t) =
      (cutFrom? (markAfter mark s) d t).map fun sides => (s ++ sides.1, sides.2) := by
  induction s generalizing mark with
  | nil => exact Option.map_id'.symm
  | cons c s ih =>
      obtain ⟨hcut, hrest⟩ := cutFrom?_cons_eq_none h
      rw [List.cons_append, cutFrom?, hcut, ih hrest, Option.map_map]
      rfl

theorem foldr_consFirst (s p : List Char) (ps : List (List Char)) :
    s.foldr consFirst (p :: ps) = (s ++ p) :: ps := by
  induction s with
  | nil => rfl
  | cons c s ih => rw [List.foldr_cons, ih]; rfl

theorem piecesFrom_append (h : cutFrom? mark d s = none) (t : List Char) :
    piecesFrom mark d (s ++ t) = s.foldr consFirst (piecesFrom (markAfter mark s) d t) := by
  induction s generalizing mark with
  | nil => rfl
  | cons c s ih =>
      obtain ⟨hcut, hrest⟩ := cutFrom?_cons_eq_none h
      rw [List.cons_append, piecesFrom, hcut, ih hrest]
      rfl

/-! ## Sealed texts -/

structure Sealed (d : Char) (s : List Char) : Prop where
  /-- Every mark that opens is closed. -/
  closed : markAfter none s = none
  /-- No delimiter stands outside quotation. -/
  uncut : cut? d s = none

theorem Sealed.append (hs : Sealed d s) (ht : Sealed d t) : Sealed d (s ++ t) := by
  constructor
  · rw [markAfter_append, hs.closed, ht.closed]
  · rw [cut?, cutFrom?_append hs.uncut, hs.closed, ← cut?, ht.uncut]
    rfl

theorem Sealed.cons {c : Char} (hc : isQuote c = false ∧ c ≠ d) (hs : Sealed d s) :
    Sealed d (c :: s) := by
  have hcut : isCut none d c = false := by simp [isCut, hc.2]
  constructor
  · rw [markAfter_cons, advance_plain hc.1, hs.closed]
  · rw [cut?, cutFrom?, hcut, advance_plain hc.1, ← cut?, hs.uncut]
    rfl

/-- Without marks, a text without the delimiter is sealed. -/
theorem Sealed.of_free (h : FreeOf ['"', '\'', d] s) : Sealed d s := by
  induction s with
  | nil => exact ⟨rfl, rfl⟩
  | cons c s ih =>
      obtain ⟨hc, hs⟩ := List.forall_mem_cons.mp h
      simp only [List.mem_cons, List.not_mem_nil, or_false, not_or] at hc
      exact .cons ⟨by simp [isQuote, hc], hc.2.2⟩ (ih hs)

/-- A text that is free of the marks is sealed for whatever else it is free of. -/
theorem Sealed.of_freeOf {chars among : List Char} (hmarks : ['"', '\''] ⊆ chars)
    (hamong : among ⊆ chars) (hd : d ∈ among) (h : FreeOf chars s) : Sealed d s := by
  refine .of_free (h.mono ?_)
  intro c hc
  simp only [List.mem_cons, List.not_mem_nil, or_false] at hc
  rcases hc with rfl | rfl | rfl
  · exact hmarks (by simp)
  · exact hmarks (by simp)
  · exact hamong hd

theorem Sealed.of_allBlank (hd : isBlank d = false) (h : allBlank s = true) : Sealed d s := by
  refine .of_free (freeOf_of_allBlank ?_ h)
  simp only [List.forall_mem_cons, hd]
  simp [isBlank]

theorem Sealed.intercalate {c : Char} (hc : isQuote c = false ∧ c ≠ d) {ps : List (List Char)}
    (h : ∀ p ∈ ps, Sealed d p) : Sealed d ([c].intercalate ps) := by
  induction ps with
  | nil => exact ⟨rfl, rfl⟩
  | cons p ps ih =>
      obtain ⟨hp, hps⟩ := List.forall_mem_cons.mp h
      cases ps with
      | nil => rwa [List.intercalate_singleton]
      | cons next ps =>
          rw [List.intercalate_cons_cons, List.append_assoc, List.singleton_append]
          exact hp.append (.cons hc (ih hps))

theorem markAfter_some (h : q ∉ s) : markAfter (some q) s = some q := by
  induction s with
  | nil => rfl
  | cons c s ih =>
      obtain ⟨hc, hs⟩ := List.ne_and_not_mem_of_not_mem_cons h
      rw [markAfter_cons, advance_inside (Ne.symm hc), ih hs]

theorem cutFrom?_some (d : Char) (h : q ∉ s) : cutFrom? (some q) d s = none := by
  induction s with
  | nil => rfl
  | cons c s ih =>
      obtain ⟨hc, hs⟩ := List.ne_and_not_mem_of_not_mem_cons h
      rw [cutFrom?, advance_inside (Ne.symm hc), ih hs]
      rfl

/-- A text between two equal marks is sealed if it does not hold that mark. -/
theorem Sealed.of_quoted (d : Char) (hq : isQuote q = true) (h : q ∉ s) :
    Sealed d (q :: s ++ [q]) := by
  -- Between the marks a scan waits for the second one and stops nowhere.
  have hinside : markAfter none (q :: s) = some q := by
    rw [markAfter_cons, advance_opening hq, markAfter_some h]
  have huncut : cutFrom? none d (q :: s) = none := by
    rw [cutFrom?, advance_opening hq, cutFrom?_some d h]
    simp [isCut, hq]
  constructor
  · rw [markAfter_append, hinside]
    exact advance_closing q
  · rw [cut?, cutFrom?_append huncut, hinside]
    rfl

/-! ## Splitting what is put together -/

/-- A cut takes nothing but the delimiter away. -/
theorem eq_of_cutFrom? {sides : List Char × List Char} (h : cutFrom? mark d s = some sides) :
    s = sides.1 ++ d :: sides.2 := by
  induction s generalizing mark sides with
  | nil => cases h
  | cons c s ih =>
      rw [cutFrom?] at h
      split at h
      · next hcut =>
        cases h
        simp only [isCut, Bool.and_eq_true, beq_iff_eq] at hcut
        rw [hcut.2]
        rfl
      · obtain ⟨rest, hrest, rfl⟩ := Option.map_eq_some_iff.mp h
        rw [List.cons_append, ← ih hrest]

theorem Sealed.cut?_append (hs : Sealed d s) (hd : isQuote d = false) (t : List Char) :
    cut? d (s ++ d :: t) = some (s, t) := by
  rw [cut?, cutFrom?_append hs.uncut, hs.closed, cutFrom?, isCut_none hd, if_pos rfl,
    Option.map_some, List.append_nil]

theorem Sealed.piecesFrom_append (hs : Sealed d s) (hd : isQuote d = false) (t : List Char) :
    piecesFrom none d (s ++ d :: t) = s :: piecesFrom none d t := by
  rw [Text.piecesFrom_append hs.uncut, hs.closed, piecesFrom, isCut_none hd, if_pos rfl,
    foldr_consFirst, List.append_nil]

theorem piecesFrom_of_uncut (h : cutFrom? mark d s = none) : piecesFrom mark d s = [s] := by
  rw [← List.append_nil s, piecesFrom_append h, piecesFrom, foldr_consFirst]

theorem piecesFrom_ne_nil (mark : Option Char) (d : Char) (s : List Char) :
    piecesFrom mark d s ≠ [] := by
  cases s with
  | nil => exact List.cons_ne_nil _ _
  | cons c s =>
      rw [piecesFrom]
      split
      · exact List.cons_ne_nil _ _
      · unfold consFirst
        split <;> exact List.cons_ne_nil _ _

/-- A mark cuts nothing, and what is in front of a cut has closed its marks and has
no cut itself. -/
theorem front_of_cutFrom? {sides : List Char × List Char}
    (h : cutFrom? mark d s = some sides) :
    isQuote d = false ∧ markAfter mark sides.1 = none ∧ cutFrom? mark d sides.1 = none := by
  induction s generalizing mark sides with
  | nil => cases h
  | cons c s ih =>
      rw [cutFrom?] at h
      split at h
      · next hcut =>
        cases h
        simp only [isCut, Bool.and_eq_true, Option.isNone_iff_eq_none, Bool.not_eq_true',
          beq_iff_eq] at hcut
        obtain ⟨⟨hmark, hc⟩, rfl⟩ := hcut
        exact ⟨hc, hmark, rfl⟩
      · next hcut =>
        obtain ⟨rest, hrest, rfl⟩ := Option.map_eq_some_iff.mp h
        obtain ⟨hd, hclosed, huncut⟩ := ih hrest
        refine ⟨hd, hclosed, ?_⟩
        rw [cutFrom?, if_neg hcut, huncut]
        rfl

theorem sealed_of_cut? {sides : List Char × List Char} (h : cut? d s = some sides) :
    Sealed d sides.1 := by
  obtain ⟨_, hclosed, huncut⟩ := front_of_cutFrom? h
  exact ⟨hclosed, huncut⟩

/-- A text has no cut, or it is a sealed text, a delimiter and what is behind its first cut. -/
theorem cut_induction {motive : List Char → Prop} (d : Char)
    (whole : ∀ s, cut? d s = none → motive s)
    (cut : ∀ a b, Sealed d a → motive b → motive (a ++ d :: b)) (s : List Char) : motive s := by
  cases h : cut? d s with
  | none => exact whole s h
  | some sides =>
      have hs : s = sides.1 ++ d :: sides.2 := eq_of_cutFrom? h
      have hlt : sides.2.length < s.length := by
        rw [hs, List.length_append, List.length_cons]
        omega
      rw [hs]
      exact cut _ _ (sealed_of_cut? h) (cut_induction d whole cut sides.2)
termination_by s.length

theorem Sealed.tokens_append (hs : Sealed d s) (hd : isQuote d = false) (t : List Char) :
    tokens d (s ++ d :: t) = s :: tokens d t := by
  rw [tokens, hs.piecesFrom_append hd, tokens]
  exact dropEmptyLast.eq_3 s _ (piecesFrom_ne_nil none d t)

theorem tokens_of_uncut (h : cut? d s = none) : tokens d s = if s = [] then [] else [s] := by
  rw [tokens, piecesFrom_of_uncut h, dropEmptyLast]
  simp only [List.isEmpty_iff]

/-- Only the empty text has no token. -/
theorem tokens_ne_nil (d : Char) (hne : s ≠ []) : tokens d s ≠ [] := by
  cases h : cut? d s with
  | none =>
      rw [tokens_of_uncut h, if_neg hne]
      exact List.cons_ne_nil _ _
  | some sides =>
      obtain ⟨hd, _⟩ := front_of_cutFrom? h
      have hs : s = sides.1 ++ d :: sides.2 := eq_of_cutFrom? h
      rw [hs, (sealed_of_cut? h).tokens_append hd]
      exact List.cons_ne_nil _ _

theorem Sealed.tokens_eq (hs : Sealed d s) (hne : s ≠ []) : tokens d s = [s] := by
  rw [tokens_of_uncut hs.uncut, if_neg hne]

/-- Texts without a cut are the tokens between the delimiters that join them, if
the last of them has something in it and the others have closed their marks. -/
theorem tokens_intercalate_of_uncut (hd : isQuote d = false) {ps : List (List Char)}
    (huncut : ∀ p ∈ ps, cut? d p = none) (hclosed : ∀ p ∈ ps.dropLast, markAfter none p = none)
    (hlast : ps.getLast? ≠ some []) : tokens d ([d].intercalate ps) = ps := by
  induction ps with
  | nil => rfl
  | cons p ps ih =>
      obtain ⟨hp, hps⟩ := List.forall_mem_cons.mp huncut
      cases ps with
      | nil =>
          have hne : p ≠ [] := fun e => hlast (congrArg some e)
          rw [List.intercalate_singleton, tokens_of_uncut hp, if_neg hne]
      | cons next ps =>
          rw [List.dropLast_cons_of_ne_nil (List.cons_ne_nil _ _), List.forall_mem_cons] at hclosed
          have hsealed : Sealed d p := ⟨hclosed.1, hp⟩
          rw [List.intercalate_cons_cons, List.append_assoc, List.singleton_append,
            hsealed.tokens_append hd, ih hps hclosed.2 hlast]

/-- Sealed texts that are not empty are the tokens between the delimiters that join them. -/
theorem tokens_intercalate (hd : isQuote d = false) {ps : List (List Char)}
    (h : ∀ p ∈ ps, Sealed d p ∧ p ≠ []) : tokens d ([d].intercalate ps) = ps :=
  tokens_intercalate_of_uncut hd (fun p hp => (h p hp).1.uncut)
    (fun p hp => (h p (List.dropLast_subset ps hp)).1.closed)
    fun hlast => (h [] (List.mem_of_getLast? hlast)).2 rfl

/-! ## Text added behind a text -/

theorem consFirst_append {ps : List (List Char)} (h : ps ≠ []) (c : Char)
    (more : List (List Char)) : consFirst c (ps ++ more) = consFirst c ps ++ more := by
  cases ps with
  | nil => exact absurd rfl h
  | cons p ps => rfl

theorem advance_of_isCut {c : Char} (h : isCut mark d c = true) : advance mark c = none := by
  simp only [isCut, Bool.and_eq_true, Option.isNone_iff_eq_none, Bool.not_eq_true'] at h
  obtain ⟨⟨rfl, hquote⟩, -⟩ := h
  exact advance_plain hquote

theorem isQuote_of_advance {c m : Char} (hmark : ∀ m ∈ mark, isQuote m = true)
    (h : advance mark c = some m) : isQuote m = true := by
  unfold advance at h
  split at h
  · split at h
    · cases h
    · exact hmark m h
  · split at h
    · next hc =>
      cases h
      exact hc
    · cases h

/-- Nothing but a mark is ever open. -/
theorem isQuote_of_markAfter (hmark : ∀ m ∈ mark, isQuote m = true)
    (h : markAfter mark s = some q) : isQuote q = true := by
  induction s generalizing mark with
  | nil => exact hmark q h
  | cons c s ih => exact ih (fun m hm => isQuote_of_advance hmark hm) h

/-- Behind a text that has closed its marks, a delimiter begins new pieces. -/
theorem piecesFrom_append_of_closed (hd : isQuote d = false) (h : markAfter mark s = none)
    (t : List Char) :
    piecesFrom mark d (s ++ d :: t) = piecesFrom mark d s ++ piecesFrom none d t := by
  induction s generalizing mark with
  | nil =>
      obtain rfl : mark = none := h
      rw [List.nil_append, piecesFrom, piecesFrom, isCut_none hd, if_pos rfl]
      rfl
  | cons c s ih =>
      rw [markAfter_cons] at h
      rw [List.cons_append, piecesFrom, piecesFrom]
      split
      · next hcut =>
        rw [advance_of_isCut hcut] at h
        rw [ih h, List.cons_append]
      · rw [ih h, consFirst_append (piecesFrom_ne_nil _ _ _)]

/-- Behind a text with an open mark, whatever does not close it belongs to the last piece. -/
theorem piecesFrom_append_of_open (h : markAfter mark s = some q) (ht : q ∉ t) :
    ∃ ps p, piecesFrom mark d s = ps ++ [p] ∧ piecesFrom mark d (s ++ t) = ps ++ [p ++ t] := by
  induction s generalizing mark with
  | nil =>
      obtain rfl : mark = some q := h
      exact ⟨[], [], rfl, piecesFrom_of_uncut (cutFrom?_some d ht)⟩
  | cons c s ih =>
      rw [markAfter_cons] at h
      rw [List.cons_append, piecesFrom, piecesFrom]
      split
      · next hcut =>
        rw [advance_of_isCut hcut] at h
        obtain ⟨ps, p, hs, hall⟩ := ih h
        exact ⟨[] :: ps, p, congrArg ([] :: ·) hs, congrArg ([] :: ·) hall⟩
      · obtain ⟨ps, p, hs, hall⟩ := ih h
        rw [hs, hall]
        cases ps with
        | nil => exact ⟨[], c :: p, rfl, rfl⟩
        | cons first ps => exact ⟨(c :: first) :: ps, p, rfl, rfl⟩

/-! ## Marks around a text -/

theorem insideOf?_quoted (q mark : Char) (s : List Char) :
    insideOf? q (mark :: s ++ [mark]) = if mark = q then some s else none := by
  rw [List.cons_append, insideOf?, List.getLast?_concat, List.dropLast_concat]
  simp

theorem withoutMarks_quoted (hq : isQuote q = true) (s : List Char) :
    withoutMarks (q :: s ++ [q]) = s := by
  rw [withoutMarks, insideOf?_quoted, insideOf?_quoted]
  rcases isQuote_iff.mp hq with rfl | rfl <;> rfl

theorem insideOf?_of_not_mem (h : q ∉ s) : insideOf? q s = none := by
  cases s with
  | nil => rfl
  | cons c s =>
      obtain ⟨hc, _⟩ := List.ne_and_not_mem_of_not_mem_cons h
      exact if_neg fun hends => hc hends.1.symm

theorem withoutMarks_of_free (h : FreeOf ['"', '\''] s) : withoutMarks s = s := by
  have hdouble : insideOf? '"' s = none := insideOf?_of_not_mem (h.not_mem (by decide))
  have hsingle : insideOf? '\'' s = none := insideOf?_of_not_mem (h.not_mem (by decide))
  rw [withoutMarks, hdouble, hsingle]
  rfl

/-! ## How many tokens there are -/

/-- An empty piece at the end is no loss to those who skip empty ones. -/
theorem filter_trim_dropEmptyLast (ps : List (List Char)) :
    ((dropEmptyLast ps).map trim).filter (!·.isEmpty) = (ps.map trim).filter (!·.isEmpty) := by
  fun_induction dropEmptyLast ps with
  | case1 => rfl
  | case2 p hp =>
      obtain rfl := List.isEmpty_iff.mp hp
      rfl
  | case3 => rfl
  | case4 p ps hne ih =>
      rw [List.map_cons, List.map_cons, List.filter_cons, List.filter_cons, ih]

theorem length_consFirst (c : Char) (ps : List (List Char)) :
    (consFirst c ps).length = max 1 ps.length := by
  cases ps <;> simp [consFirst]

theorem length_piecesFrom_le (mark : Option Char) (d : Char) (s : List Char) :
    (piecesFrom mark d s).length ≤ s.length + 1 := by
  induction s generalizing mark with
  | nil => exact Nat.le_refl _
  | cons c s ih =>
      rw [piecesFrom]
      split
      · exact Nat.succ_le_succ (ih none)
      · have := ih (advance mark c)
        rw [length_consFirst, List.length_cons]
        omega

theorem length_dropEmptyLast_le (ps : List (List Char)) :
    (dropEmptyLast ps).length ≤ ps.length := by
  fun_induction dropEmptyLast ps with
  | case1 => exact Nat.le_refl _
  | case2 => exact Nat.zero_le _
  | case3 => exact Nat.le_refl _
  | case4 p ps hne ih => exact Nat.succ_le_succ ih

theorem length_tokens_le (d : Char) (s : List Char) : (tokens d s).length ≤ s.length + 1 :=
  Nat.le_trans (length_dropEmptyLast_le _) (length_piecesFrom_le none d s)

end DbRoute.Text
