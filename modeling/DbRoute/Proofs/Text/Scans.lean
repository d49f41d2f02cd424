import DbRoute.Proofs.Text.Quotation

/-!
# Texts that a scan takes alike

A scan that comes to a text has a mark open or none. What it does in the text,
and how it leaves it, depends on that mark, but two texts may be alike for every
mark. Whatever stands around them then, they can be exchanged. A text without
marks and delimiters is as good as none.
-/

namespace DbRoute.Text

variable {d : Char} {mark : Option Char} {s t s' t' : List Char}

/-- The open mark, if there is one, is a mark indeed. -/
def IsMark (mark : Option Char) : Prop := ∀ m ∈ mark, isQuote m = true

/-- In whatever state a scan comes to either text, it stops in both or in neither,
and it leaves both in the same state. -/
structure ScansAs (d : Char) (s t : List Char) : Prop where
  mark_eq : ∀ mark, IsMark mark → markAfter mark s = markAfter mark t
  uncut_iff : ∀ mark, IsMark mark → (cutFrom? mark d s = none ↔ cutFrom? mark d t = none)

theorem isMark_none : IsMark none := fun _ h => nomatch h

theorem IsMark.markAfter (h : IsMark mark) (s : List Char) : IsMark (markAfter mark s) :=
  fun _ hm => isQuote_of_markAfter h hm

theorem cutFrom?_append_eq_none :
    cutFrom? mark d (s ++ t) = none ↔
      cutFrom? mark d s = none ∧ cutFrom? (markAfter mark s) d t = none := by
  constructor
  · intro h
    have hs : cutFrom? mark d s = none := by
      induction s generalizing mark with
      | nil => rfl
      | cons c s ih =>
          obtain ⟨hcut, hrest⟩ := cutFrom?_cons_eq_none h
          rw [cutFrom?, hcut, ih hrest]
          rfl
    rw [cutFrom?_append hs, Option.map_eq_none_iff] at h
    exact ⟨hs, h⟩
  · rintro ⟨hs, ht⟩
    rw [cutFrom?_append hs, ht]
    rfl

theorem advance_eq_self (hmark : IsMark mark) {c : Char} (hc : isQuote c = false) :
    advance mark c = mark := by
  cases mark with
  | none => exact advance_plain hc
  | some q =>
      -- What is open is a mark, and so it is another character.
      apply advance_inside
      rintro rfl
      exact Bool.false_ne_true (hc.symm.trans (hmark c rfl))

theorem markAfter_eq_self (hmark : IsMark mark) (h : ∀ c ∈ s, isQuote c = false) :
    markAfter mark s = mark := by
  induction s with
  | nil => rfl
  | cons c s ih =>
      obtain ⟨hc, hs⟩ := List.forall_mem_cons.mp h
      rw [markAfter_cons, advance_eq_self hmark hc, ih hs]

theorem cutFrom?_of_not_mem (mark : Option Char) (h : d ∉ s) : cutFrom? mark d s = none := by
  induction s generalizing mark with
  | nil => rfl
  | cons c s ih =>
      obtain ⟨hc, hs⟩ := List.ne_and_not_mem_of_not_mem_cons h
      have hcut : isCut mark d c = false := by simp [isCut, Ne.symm hc]
      rw [cutFrom?, hcut, ih _ hs]
      rfl

namespace ScansAs

variable {u : List Char}

theorem refl (d : Char) (s : List Char) : ScansAs d s s :=
  ⟨fun _ _ => rfl, fun _ _ => Iff.rfl⟩

theorem symm (h : ScansAs d s t) : ScansAs d t s :=
  ⟨fun mark hmark => (h.mark_eq mark hmark).symm, fun mark hmark => (h.uncut_iff mark hmark).symm⟩

theorem trans (hs : ScansAs d s t) (ht : ScansAs d t u) : ScansAs d s u :=
  ⟨fun mark hmark => (hs.mark_eq mark hmark).trans (ht.mark_eq mark hmark),
    fun mark hmark => (hs.uncut_iff mark hmark).trans (ht.uncut_iff mark hmark)⟩

theorem append (hs : ScansAs d s s') (ht : ScansAs d t t') : ScansAs d (s ++ t) (s' ++ t') := by
  constructor
  · intro mark hmark
    rw [markAfter_append, markAfter_append, hs.mark_eq mark hmark,
      ht.mark_eq _ (hmark.markAfter s')]
  · intro mark hmark
    rw [cutFrom?_append_eq_none, cutFrom?_append_eq_none, hs.uncut_iff mark hmark,
      hs.mark_eq mark hmark, ht.uncut_iff _ (hmark.markAfter s')]

/-- A text with neither marks nor delimiters is as good as none. -/
theorem nil_of_free (h : FreeOf ['"', '\'', d] s) : ScansAs d s [] := by
  have hquote : ∀ c ∈ s, isQuote c = false := by
    intro c hc
    have hfree := h c hc
    simp only [List.mem_cons, List.not_mem_nil, or_false, not_or] at hfree
    simp [isQuote, hfree]
  constructor
  · intro mark hmark
    exact markAfter_eq_self hmark hquote
  · intro mark _
    exact ⟨fun _ => rfl, fun _ => cutFrom?_of_not_mem mark (h.not_mem (by simp))⟩

end ScansAs

end DbRoute.Text
