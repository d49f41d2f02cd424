import DbRoute.Proofs.Text.Numeral
import DbRoute.Toml.Quoted

/-!
# Where strings end

A string ends at its closing marks. Whatever follows them, the same is read from it; only
where a string may have three marks at its ends must there be something to tell them from
marks of the text.
-/

namespace DbRoute.Toml

variable {s t x rest : List Char} {c q : Char} {multiline : Bool} {mode : Mode}

/-- What is made of a mark inside a string: the end, or a character of its text. -/
def closing (multiline : Bool) (q : Char) (read : List Char → Option (List Char × List Char))
    (s : List Char) : Option (List Char × List Char) :=
  if !multiline then some ([], s)
  else if startsTwice q s then some (afterTriple q (s.drop 2))
  else (read s).map fun r => (q :: r.1, r.2)

theorem map_cons_append {r r' : Option (List Char × List Char)}
    (h : r.map (fun r => (c :: r.1, r.2)) = some (x, rest))
    (hr : ∀ {x}, r = some (x, rest) → r' = some (x, rest ++ t)) :
    r'.map (fun r => (c :: r.1, r.2)) = some (x, rest ++ t) := by
  obtain ⟨⟨x, rest⟩, hread, heq⟩ := Option.map_eq_some_iff.mp h
  cases heq
  rw [hr hread]
  rfl

/-- Marks behind a triple are told from the text if anything follows them. -/
theorem afterTriple_append (h : afterTriple q s = (x, rest)) (hrest : rest ≠ []) (t : List Char) :
    afterTriple q (s ++ t) = (x, rest ++ t) := by
  have hother : ∀ (c : Char) (s : List Char), c ≠ q → afterTriple q (c :: s) = ([], c :: s) := by
    intro c s hc
    simp [afterTriple, hc]
  rcases s with _ | ⟨a, _ | ⟨b, s⟩⟩
  · cases h
    exact absurd rfl hrest
  · by_cases ha : a = q
    · have hnil : afterTriple q [a] = ([a], []) := by simp [afterTriple, ha]
      rw [hnil] at h
      cases h
      exact absurd rfl hrest
    · rw [hother a [] ha] at h
      cases h
      exact hother a t ha
  · by_cases ha : a = q
    · by_cases hb : b = q
      · have htwo : ∀ s : List Char, afterTriple q (a :: b :: s) = ([a, b], s) := by
          intro s
          simp [afterTriple, ha, hb]
        rw [htwo] at h
        cases h
        exact htwo _
      · have hone : ∀ s : List Char, afterTriple q (a :: b :: s) = ([a], b :: s) := by
          intro s
          simp [afterTriple, ha, hb]
        rw [hone] at h
        cases h
        exact hone _
    · rw [hother a (b :: s) ha] at h
      cases h
      exact hother a _ ha

theorem closing_append {read : List Char → Option (List Char × List Char)}
    (hshort : multiline = true → s.length < 2 → read s = none)
    (hread : ∀ {x}, read s = some (x, rest) → read (s ++ t) = some (x, rest ++ t))
    (hrest : multiline = true → rest ≠ []) (h : closing multiline q read s = some (x, rest)) :
    closing multiline q read (s ++ t) = some (x, rest ++ t) := by
  cases multiline with
  | false =>
      cases h
      rfl
  | true =>
      have hlength : 2 ≤ s.length := by
        refine Nat.le_of_not_lt fun hlt => ?_
        have hfirst : startsTwice q s = false := by
          refine beq_eq_false_iff_ne.mpr fun htake => ?_
          have := congrArg List.length htake
          simp at this
          omega
        simp [closing, hfirst, hshort rfl hlt] at h
      have htwice : startsTwice q (s ++ t) = startsTwice q s := by
        rw [startsTwice, startsTwice, List.take_append_of_le_length hlength]
      unfold closing at h ⊢
      rw [htwice, List.drop_append_of_le_length hlength]
      rw [if_neg (by decide)] at h ⊢
      split_ifs at h ⊢
      · exact congrArg some (afterTriple_append (Option.some.inj h) (hrest rfl) t)
      · exact map_cons_append h hread

theorem readBasic?_nil : readBasic? multiline mode [] = none := by
  cases mode <;> rfl

theorem readBasic?_text (hmode : mode = .plain ∨ mode = .dropped) :
    readBasic? multiline mode (c :: s) =
      if mode = .dropped ∧ (isSpace c ∨ c = '\n') then readBasic? multiline .dropped s
      else if c = '"' then closing multiline '"' (readBasic? multiline .plain) s
      else if c = '\\' then readBasic? multiline .letter s
      else if isPlain c || (multiline && c == '\n') then
        (readBasic? multiline .plain s).map fun r => (c :: r.1, r.2)
      else none := by
  have htext : ∀ r : Option (List Char × List Char),
      (if c = '"' then
        if !multiline then some ([], s)
        else if startsTwice '"' s then some (afterTriple '"' (s.drop 2))
        else (readBasic? multiline .plain s).map fun r => (c :: r.1, r.2)
      else r) = if c = '"' then closing multiline '"' (readBasic? multiline .plain) s else r := by
    intro r
    refine if_ctx_congr Iff.rfl (fun hc => ?_) fun _ => rfl
    rw [hc, closing]
  rcases hmode with rfl | rfl
  · rw [← htext, readBasic?] <;> simp
  · rw [← htext, readBasic?] <;> simp

/-- One character does not both close a string and open the end of its text. -/
theorem readBasic?_short (hmultiline : multiline = true) (h : s.length < 2) :
    readBasic? multiline .plain s = none := by
  rcases s with _ | ⟨c, _ | ⟨d, s⟩⟩
  · exact readBasic?_nil
  · rw [readBasic?_text (.inl rfl), readBasic?_nil, readBasic?_nil, readBasic?_nil]
    simp [hmultiline, closing, startsTwice, readBasic?_nil]
  · rw [List.length_cons, List.length_cons] at h
    omega

theorem readBasic?_append (h : readBasic? multiline mode s = some (x, rest))
    (hrest : multiline = true → rest ≠ []) (t : List Char) :
    readBasic? multiline mode (s ++ t) = some (x, rest ++ t) := by
  induction s generalizing mode x with
  | nil =>
      rw [readBasic?_nil] at h
      cases h
  | cons c s ih =>
      have htext : ∀ {mode x}, (mode = .plain ∨ mode = .dropped) →
          readBasic? multiline mode (c :: s) = some (x, rest) →
          readBasic? multiline mode (c :: (s ++ t)) = some (x, rest ++ t) := by
        intro mode x hmode h
        rw [readBasic?_text hmode] at h ⊢
        split_ifs at h ⊢
        · exact ih h
        · exact closing_append readBasic?_short ih hrest h
        · exact ih h
        · exact map_cons_append h ih
      rw [List.cons_append]
      cases mode with
      | plain => exact htext (.inl rfl) h
      | dropped => exact htext (.inr rfl) h
      | letter =>
          rw [readBasic?] at h ⊢
          split_ifs at h ⊢
          · exact ih h
          · exact ih h
          · exact ih h
          · exact ih h
          · cases hletter : shortEscape? c with
            | none =>
                rw [hletter] at h
                cases h
            | some y =>
                rw [hletter] at h
                exact map_cons_append h ih
      | digit left value =>
          rw [readBasic?] at h ⊢
          cases hdigit : Text.digit? 16 c with
          | none =>
              rw [hdigit] at h
              cases h
          | some d =>
              rw [hdigit] at h
              dsimp only at h ⊢
              split_ifs at h ⊢
              · exact ih h
              · exact map_cons_append h ih
      | lineEnd =>
          rw [readBasic?] at h ⊢
          split_ifs at h ⊢
          · exact ih h
          · exact ih h

theorem readLiteral?_cons : readLiteral? multiline (c :: s) =
    if c = '\'' then closing multiline '\'' (readLiteral? multiline) s
    else if isPlain c || (multiline && c == '\n') then
      (readLiteral? multiline s).map fun r => (c :: r.1, r.2)
    else none := by
  rw [readLiteral?]
  refine if_ctx_congr Iff.rfl (fun hc => ?_) fun _ => rfl
  rw [hc, closing]

theorem readLiteral?_short (hmultiline : multiline = true) (h : s.length < 2) :
    readLiteral? multiline s = none := by
  rcases s with _ | ⟨c, _ | ⟨d, s⟩⟩
  · rfl
  · rw [readLiteral?_cons]
    simp [hmultiline, closing, startsTwice, readLiteral?]
  · rw [List.length_cons, List.length_cons] at h
    omega

theorem readLiteral?_append (h : readLiteral? multiline s = some (x, rest))
    (hrest : multiline = true → rest ≠ []) (t : List Char) :
    readLiteral? multiline (s ++ t) = some (x, rest ++ t) := by
  induction s generalizing x with
  | nil => cases h
  | cons c s ih =>
      rw [List.cons_append]
      rw [readLiteral?_cons] at h ⊢
      split_ifs at h ⊢
      · exact closing_append readLiteral?_short ih hrest h
      · exact map_cons_append h ih

theorem readQuotedLine?_append (h : readQuotedLine? s = some (x, rest)) (t : List Char) :
    readQuotedLine? (s ++ t) = some (x, rest ++ t) := by
  unfold readQuotedLine? at h
  split at h
  · exact readBasic?_append h (fun hfalse => by cases hfalse) t
  · exact readLiteral?_append h (fun hfalse => by cases hfalse) t
  · cases h

/-- Behind the marks that open a string on several lines. -/
theorem dropLineFeed_append {read : List Char → Option (List Char × List Char)}
    (hnil : read [] = none)
    (hread : ∀ {s}, read s = some (x, rest) → read (s ++ t) = some (x, rest ++ t))
    (h : read (dropLineFeed (s.drop 2)) = some (x, rest)) :
    read (dropLineFeed ((s ++ t).drop 2)) = some (x, rest ++ t) := by
  rcases s with _ | ⟨a, _ | ⟨b, _ | ⟨c, s⟩⟩⟩
  · exact absurd (hnil.symm.trans h) (by simp)
  · exact absurd (hnil.symm.trans h) (by simp)
  · exact absurd (hnil.symm.trans h) (by simp)
  · by_cases hc : c = '\n'
    · subst hc
      exact hread h
    · have hdrop : ∀ s, dropLineFeed (c :: s) = c :: s := fun s => by simp [dropLineFeed, hc]
      simp only [List.drop_succ_cons, List.drop_zero, List.cons_append, hdrop] at h ⊢
      exact hread h

/-- Whether a string opens with one mark or with three is seen from what follows its end. -/
theorem opening_append {single triple : List Char → Option (List Char × List Char)}
    (hnil : single [] = none ∧ triple [] = none)
    (hone : ∀ c, single [c] = some (x, rest) → rest = []) (hrest : rest ≠ [])
    (hsingle : ∀ {s}, single s = some (x, rest) → single (s ++ t) = some (x, rest ++ t))
    (htriple : ∀ {s}, triple s = some (x, rest) → triple (s ++ t) = some (x, rest ++ t))
    (h : (if startsTwice q s then triple (dropLineFeed (s.drop 2)) else single s) =
      some (x, rest)) :
    (if startsTwice q (s ++ t) then triple (dropLineFeed ((s ++ t).drop 2)) else single (s ++ t)) =
      some (x, rest ++ t) := by
  have hlength : 2 ≤ s.length := by
    rcases s with _ | ⟨a, _ | ⟨b, s⟩⟩
    · rw [if_neg (by simp [startsTwice]), hnil.1] at h
      cases h
    · rw [if_neg (by simp [startsTwice])] at h
      exact absurd (hone a h) hrest
    · simp
  have htwice : startsTwice q (s ++ t) = startsTwice q s := by
    rw [startsTwice, startsTwice, List.take_append_of_le_length hlength]
  rw [htwice]
  split_ifs at h ⊢
  · exact dropLineFeed_append hnil.2 htriple h
  · exact hsingle h

theorem readBasic?_singleton (h : readBasic? false .plain [c] = some (x, rest)) : rest = [] := by
  rw [readBasic?_text (.inl rfl), readBasic?_nil, readBasic?_nil, readBasic?_nil] at h
  simp [closing] at h
  exact h.2.2

theorem readLiteral?_singleton (h : readLiteral? false [c] = some (x, rest)) : rest = [] := by
  rw [readLiteral?_cons] at h
  simp [closing, readLiteral?] at h
  exact h.2.2

theorem readQuoted?_append (h : readQuoted? s = some (x, rest)) (hrest : rest ≠ [])
    (t : List Char) : readQuoted? (s ++ t) = some (x, rest ++ t) := by
  unfold readQuoted? at h
  split at h
  · exact opening_append ⟨readBasic?_nil, readBasic?_nil⟩ (fun _ => readBasic?_singleton) hrest
      (fun h => readBasic?_append h (fun _ => hrest) t)
      (fun h => readBasic?_append h (fun _ => hrest) t) h
  · exact opening_append ⟨rfl, rfl⟩ (fun _ => readLiteral?_singleton) hrest
      (fun h => readLiteral?_append h (fun _ => hrest) t)
      (fun h => readLiteral?_append h (fun _ => hrest) t) h
  · cases h

end DbRoute.Toml
