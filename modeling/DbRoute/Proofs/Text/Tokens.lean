import DbRoute.Proofs.Text.Quotation

/-!
# Tokens and the delimiters between them

A split starts its scan afresh behind every delimiter. It still finds the very
places at which a single scan of the whole text stands on a delimiter and has no
mark open, since a scan has no mark open behind a delimiter either. So the tokens
are what stands between these places, nothing of a text is lost but a delimiter
at its end, and texts that could be tokens are the tokens of what they make up.
-/

namespace DbRoute.Text

variable {d : Char} {mark : Option Char} {s a b : List Char}

/-! ## Where a text is cut -/

/-- The place holds the delimiter, and a scan of all before it has no mark open. -/
def isCutAt (d : Char) (s : List Char) (i : Nat) : Bool :=
  s[i]? == some d && (markAfter none (s.take i)).isNone

/-- The places of the delimiters outside quotation, in order. -/
def cutPlaces (d : Char) (s : List Char) : List Nat :=
  (List.range s.length).filter (isCutAt d s)

/-- What stands behind the last delimiter outside quotation, or else all of the text. -/
def behindLastCut (d : Char) (s : List Char) : List Char :=
  match (cutPlaces d s).getLast? with
  | some i => s.drop (i + 1)
  | none => s

theorem isCutAt_iff {i : Nat} :
    isCutAt d s i = true ↔ s[i]? = some d ∧ markAfter none (s.take i) = none := by
  simp [isCutAt]

theorem isCut_iff (hd : isQuote d = false) {c : Char} :
    isCut mark d c = true ↔ c = d ∧ mark = none := by
  simp only [isCut, Bool.and_eq_true, Option.isNone_iff_eq_none, Bool.not_eq_true', beq_iff_eq]
  constructor
  · rintro ⟨⟨hmark, _⟩, hc⟩
    exact ⟨hc, hmark⟩
  · rintro ⟨rfl, hmark⟩
    exact ⟨⟨hmark, hd⟩, rfl⟩

theorem cutFrom?_eq_none_iff (hd : isQuote d = false) :
    cutFrom? mark d s = none ↔ ∀ i : Nat, s[i]? = some d → markAfter mark (s.take i) ≠ none := by
  induction s generalizing mark with
  | nil => simp [cutFrom?]
  | cons c s ih =>
      constructor
      · intro h i hi hclosed
        obtain ⟨hcut, hrest⟩ := cutFrom?_cons_eq_none h
        cases i with
        | zero => exact Bool.eq_false_iff.mp hcut ((isCut_iff hd).mpr ⟨Option.some.inj hi, hclosed⟩)
        | succ i => exact ih.mp hrest i hi hclosed
      · intro h
        have hcut : ¬isCut mark d c = true := by
          rw [isCut_iff hd]
          rintro ⟨rfl, hmark⟩
          exact h 0 rfl hmark
        rw [cutFrom?, if_neg hcut, ih.mpr fun i hi => h (i + 1) hi]
        rfl

theorem cut?_eq_none_iff (hd : isQuote d = false) : cut? d s = none ↔ cutPlaces d s = [] := by
  rw [cut?, cutFrom?_eq_none_iff hd, cutPlaces, List.filter_eq_nil_iff]
  constructor
  · intro h i _ hi
    obtain ⟨hd, hclosed⟩ := isCutAt_iff.mp hi
    exact h i hd hclosed
  · intro h i hi hclosed
    obtain ⟨hlt, _⟩ := List.getElem?_eq_some_iff.mp hi
    exact h i (List.mem_range.mpr hlt) (isCutAt_iff.mpr ⟨hi, hclosed⟩)

/-! ## Behind a sealed text and a delimiter -/

namespace Sealed

/-- A scan is where it began. -/
theorem markAfter_append (ha : Sealed d a) (hd : isQuote d = false) (b : List Char) :
    markAfter none (a ++ d :: b) = markAfter none b := by
  rw [Text.markAfter_append, ha.closed, markAfter_cons, advance_plain hd]

theorem isCutAt_append (ha : Sealed d a) (hd : isQuote d = false) (b : List Char) (i : Nat) :
    isCutAt d (a ++ d :: b) (a.length + (i + 1)) = isCutAt d b i := by
  rw [isCutAt, isCutAt, List.getElem?_append_right (Nat.le_add_right _ _), Nat.add_sub_cancel_left,
    List.getElem?_cons_succ, List.take_length_add_append, List.take_succ_cons,
    ha.markAfter_append hd]

theorem isCutAt_length (ha : Sealed d a) (b : List Char) :
    isCutAt d (a ++ d :: b) a.length = true := by
  rw [isCutAt_iff, List.getElem?_append_right le_rfl, Nat.sub_self, List.take_left' rfl]
  exact ⟨rfl, ha.closed⟩

/-- The first place is that of the delimiter, and the others are those of the rest. -/
theorem cutPlaces_append (ha : Sealed d a) (hd : isQuote d = false) (b : List Char) :
    cutPlaces d (a ++ d :: b) = a.length :: (cutPlaces d b).map fun i => a.length + (i + 1) := by
  have hinside : ∀ i ∈ List.range a.length, isCutAt d (a ++ d :: b) i = isCutAt d a i := by
    intro i hi
    have hlt := List.mem_range.mp hi
    rw [isCutAt, isCutAt, List.getElem?_append_left hlt, List.take_append_of_le_length hlt.le]
  have hfront : (List.range a.length).filter (isCutAt d (a ++ d :: b)) = [] :=
    (List.filter_congr hinside).trans ((cut?_eq_none_iff hd).mp ha.uncut)
  have hback : (isCutAt d (a ++ d :: b) ∘ fun i => a.length + (i + 1)) = isCutAt d b :=
    funext (ha.isCutAt_append hd b)
  rw [cutPlaces, List.length_append, List.range_add, List.filter_append, hfront, List.nil_append,
    List.length_cons, List.range_succ_eq_map, List.map_cons, List.map_map, Nat.add_zero,
    List.filter_cons_of_pos (ha.isCutAt_length b), List.filter_map]
  exact congrArg (fun p => a.length :: ((List.range b.length).filter p).map _) hback

theorem behindLastCut_append (ha : Sealed d a) (hd : isQuote d = false) (b : List Char) :
    behindLastCut d (a ++ d :: b) = behindLastCut d b := by
  rw [behindLastCut, behindLastCut, ha.cutPlaces_append hd, List.getLast?_cons, List.getLast?_map]
  cases (cutPlaces d b).getLast? with
  | none =>
      show (a ++ d :: b).drop (a.length + 1) = b
      rw [List.drop_length_add_append]
      rfl
  | some i =>
      show (a ++ d :: b).drop (a.length + (i + 1) + 1) = b.drop (i + 1)
      rw [Nat.add_assoc, List.drop_length_add_append]
      rfl

end Sealed

/-! ## Tokens -/

/-- What a split of the text `s` at the delimiter `d` amounts to. -/
structure Tokenises (d : Char) (s : List Char) (ts : List (List Char)) : Prop where
  /-- Nothing is lost but a delimiter at the end, outside quotation. -/
  joined : s = [d].intercalate ts ∨
    s = [d].intercalate ts ++ [d] ∧ markAfter none ([d].intercalate ts) = none
  uncut : ∀ t ∈ ts, cutPlaces d t = []
  closed : ∀ t ∈ ts.dropLast, markAfter none t = none
  length_eq : ts.length = (cutPlaces d s).length + if behindLastCut d s = [] then 0 else 1

namespace Tokenises

theorem of_uncut (hd : isQuote d = false) (h : cut? d s = none) :
    Tokenises d s (if s = [] then [] else [s]) := by
  have hplaces := (cut?_eq_none_iff hd).mp h
  have hbehind : behindLastCut d s = s := by
    rw [behindLastCut, hplaces]
    rfl
  constructor
  · left
    split
    · next hs => exact hs
    · rw [List.intercalate_singleton]
  · intro t ht
    split at ht
    · cases ht
    · rwa [List.mem_singleton.mp ht]
  · intro t ht
    split at ht <;> cases ht
  · rw [hplaces, hbehind]
    split <;> rfl

/-- Only the empty text has no token. -/
theorem eq_nil (h : Tokenises d s []) : s = [] := by
  rcases h.joined with hs | ⟨hs, _⟩
  · exact hs
  · -- A text that is a mere delimiter has a token in front of it, the empty one.
    have hlength := h.length_eq
    have hcut : 0 ∈ cutPlaces d s := by
      rw [hs, cutPlaces, List.mem_filter, isCutAt_iff]
      exact ⟨List.mem_range.mpr Nat.one_pos, rfl, rfl⟩
    have hpos := List.length_pos_of_mem hcut
    rw [List.length_nil] at hlength
    omega

theorem cons (ha : Sealed d a) (hd : isQuote d = false) {ts : List (List Char)}
    (h : Tokenises d b ts) : Tokenises d (a ++ d :: b) (a :: ts) := by
  constructor
  · cases ts with
    | nil =>
        obtain rfl := h.eq_nil
        rw [List.intercalate_singleton]
        exact Or.inr ⟨rfl, ha.closed⟩
    | cons t ts =>
        rw [List.intercalate_cons_cons, List.append_assoc, List.singleton_append]
        rcases h.joined with hb | ⟨hb, hclosed⟩
        · exact Or.inl (congrArg (a ++ d :: ·) hb)
        · refine Or.inr ⟨?_, ?_⟩
          · rw [List.append_assoc, List.cons_append, ← hb]
          · rw [ha.markAfter_append hd, hclosed]
  · rw [List.forall_mem_cons]
    exact ⟨(cut?_eq_none_iff hd).mp ha.uncut, h.uncut⟩
  · intro t ht
    cases ts with
    | nil => cases ht
    | cons next ts =>
        rw [List.dropLast_cons_of_ne_nil (List.cons_ne_nil _ _)] at ht
        rcases List.mem_cons.mp ht with rfl | ht
        · exact ha.closed
        · exact h.closed t ht
  · rw [ha.cutPlaces_append hd, ha.behindLastCut_append hd, List.length_cons, List.length_cons,
      List.length_map, h.length_eq, Nat.add_right_comm]

end Tokenises

theorem tokenises_tokens (hd : isQuote d = false) (s : List Char) :
    Tokenises d s (tokens d s) := by
  -- A split restarts behind its first cut, and so does the induction.
  induction s using cut_induction d with
  | whole s h =>
      rw [tokens_of_uncut h]
      exact .of_uncut hd h
  | cut a b ha ih =>
      rw [ha.tokens_append hd]
      exact ih.cons ha hd

/-- A comma in marks, an empty token between commas, and none behind the last. -/
example : tokens ',' "x='a,b',,y,".toList = ["x='a,b'", "", "y"].map String.toList := by decide

/-- Splitting and joining, at any delimiter that is no mark. The tokens of a text
make it up again, but for a delimiter at its end; they have no delimiter outside
quotation, all but the last have closed their marks, and there are as many as the
text has such delimiters, and one more if there is something behind the last. And
texts of this kind, the last of them not empty, are the tokens of what they make
up. Stripping blanks changes each token and nothing else. -/
theorem split_and_join (hd : isQuote d = false) :
    (∀ s, Tokenises d s (tokens d s)) ∧
    (∀ ps : List (List Char), (∀ p ∈ ps, cutPlaces d p = []) →
      (∀ p ∈ ps.dropLast, markAfter none p = none) → ps.getLast? ≠ some [] →
      tokens d ([d].intercalate ps) = ps) ∧
    ∀ s, trimmedTokens d s = (tokens d s).map trim := by
  refine ⟨tokenises_tokens hd, ?_, fun _ => rfl⟩
  intro ps huncut hclosed hlast
  exact tokens_intercalate_of_uncut hd (fun p hp => (cut?_eq_none_iff hd).mpr (huncut p hp))
    hclosed hlast

/-- An arrow in marks, nothing at all, a mark inside others, and a mark left open. -/
def oddTokens : List (List Char) :=
  ["x='a→b'".toList, [], "\"it's\"".toList, "y='z→".toList]

/-- They are joined by arrows and split again. -/
theorem split_and_join_odd :
    ∃ s, s = ['→'].intercalate oddTokens ∧ tokens '→' s = oddTokens ∧
      (cutPlaces '→' s).length = 3 := by
  obtain ⟨hsplit, hjoin, _⟩ := split_and_join (d := '→') (by decide)
  have htokens := hjoin oddTokens (by decide +kernel) (by decide +kernel) (by decide +kernel)
  have hlength := (hsplit (['→'].intercalate oddTokens)).length_eq
  rw [htokens, if_neg (by decide +kernel)] at hlength
  exact ⟨_, rfl, htokens, (Nat.succ.inj hlength).symm⟩

end DbRoute.Text
