import DbRoute.Proofs.Toml.Number
import DbRoute.Proofs.Toml.Quoted
import DbRoute.Toml.Value

/-!
# Where values end

An array and a table in braces end at their closing bracket, so whatever follows it, the
same is read from them. Only what is written without marks needs something behind it that
ends it, and inside of brackets there is always such a thing: a comma, a comment, a line
break or the closing bracket.
-/

namespace DbRoute.Toml

variable {s t x rest : List Char} {c : Char} {v : Scalar}

/-! ## Scalars -/

/-- Behind spaces there is something that ends whatever stands in front of them. -/
def Bounded (rest : List Char) : Prop := Stops (skipSpace rest)

theorem Bounded.ne_nil (h : Bounded rest) : rest ≠ [] := by
  rintro rfl
  obtain ⟨c, hc, _⟩ := h
  cases hc

theorem readFixed?_eq_none {count : Nat} (hcount : count ≠ 0) (hc : c.isDigit = false)
    (s : List Char) : readFixed? count (c :: s) = none := by
  obtain ⟨n, rfl⟩ := Nat.exists_eq_succ_of_ne_zero hcount
  have hnone : Text.numberIn? 10 (c :: s.take n) = none := by
    rw [Text.numberIn?_ten, List.all_cons, hc]
    rfl
  rw [readFixed?, List.take_succ_cons, hnone]
  split <;> rfl

/-- Numbers, dates and times begin with a digit, a sign, or a letter of their own. -/
theorem readNumberLike?_eq_none (h : c ∈ ['"', '\'', 't', 'f', '[']) (s : List Char) :
    readNumberLike? (c :: s) = none := by
  have hc : c.isDigit = false ∧ Text.digit? 10 c = none ∧
      c ≠ '-' ∧ c ≠ '+' ∧ c ≠ '0' ∧ c ≠ 'i' ∧ c ≠ 'n' := by
    revert c
    decide
  obtain ⟨hdigit, hten, hminus, hplus, hzero, hi, hn⟩ := hc
  have hdate : readDateTime? (c :: s) = none := by
    rw [readDateTime?, readDate?, readTime?, readFixed?_eq_none (by decide) hdigit,
      readFixed?_eq_none (by decide) hdigit]
    rfl
  have hsign : readSign (c :: s) = (false, c :: s) := by simp [readSign, hminus, hplus]
  have hwhole : readWhole? (c :: s) = none := by simp [readWhole?, hzero, readDigits?, hten]
  have hfloat : readFloat? (c :: s) = none := by
    rw [readFloat?, readDecimalFloat?, hsign]
    simp [hwhole, readSpecialFloat?, hsign, hi, hn]
  have hinteger : readInteger? (c :: s) = none := by
    rw [readInteger?_eq_readDecimal? (.inl hzero), readDecimal?, hsign]
    simp [hwhole]
  rw [readNumberLike?, hdate, hfloat, hinteger]
  rfl

theorem readWord?_eq_none (h : c ≠ 't' ∧ c ≠ 'f') (s : List Char) : readWord? (c :: s) = none := by
  simp [readWord?, h]

theorem readWord?_append (h : readWord? s = some (v, rest)) (t : List Char) :
    readWord? (s ++ t) = some (v, rest ++ t) := by
  unfold readWord? at h
  split at h <;> cases h <;> rfl

theorem readScalar?_append (h : readScalar? s = some (v, rest)) (hrest : Bounded rest)
    (t : List Char) : readScalar? (s ++ t) = some (v, rest ++ t) := by
  cases s with
  | nil => cases h
  | cons c s =>
      rw [List.cons_append]
      -- The first character tells which of the three readers has its say.
      by_cases hmark : c = '"' ∨ c = '\''
      · have hword : ∀ s, readWord? (c :: s) = none :=
          readWord?_eq_none (by rcases hmark with rfl | rfl <;> decide)
        have hnumber : ∀ s, readNumberLike? (c :: s) = none :=
          readNumberLike?_eq_none (by rcases hmark with rfl | rfl <;> decide)
        have hread : ∀ s, readScalar? (c :: s) =
            (readQuoted? (c :: s)).map fun r => (.string (String.ofList r.1), r.2) := by
          intro s
          rw [readScalar?, hword, hnumber]
          cases readQuoted? (c :: s) <;> rfl
        rw [hread] at h ⊢
        obtain ⟨⟨x, left⟩, hquoted, heq⟩ := Option.map_eq_some_iff.mp h
        cases heq
        have hext := readQuoted?_append hquoted hrest.ne_nil t
        rw [List.cons_append] at hext
        rw [hext]
        rfl
      · have hquoted : ∀ s, readQuoted? (c :: s) = none := by
          intro s
          simp only [not_or] at hmark
          simp [readQuoted?, hmark]
        have hread : ∀ s, readScalar? (c :: s) =
            (readWord? (c :: s) <|> readNumberLike? (c :: s)) := by
          intro s
          rw [readScalar?, hquoted]
          rfl
        rw [hread] at h ⊢
        by_cases hletter : c = 't' ∨ c = 'f'
        · have hnumber : ∀ s, readNumberLike? (c :: s) = none :=
            readNumberLike?_eq_none (by rcases hletter with rfl | rfl <;> decide)
          have hword : ∀ s, (readWord? (c :: s) <|> readNumberLike? (c :: s)) =
              readWord? (c :: s) := by
            intro s
            rw [hnumber]
            cases readWord? (c :: s) <;> rfl
          rw [hword] at h ⊢
          exact readWord?_append h t
        · have hword : ∀ s, readWord? (c :: s) = none := readWord?_eq_none (not_or.mp hletter)
          rw [hword] at h ⊢
          have hrest' : rest = rest.takeWhile isSpace ++ skipSpace rest :=
            List.takeWhile_append_dropWhile.symm
          exact settled_readNumberLike?.append h hrest' hrest t

/-! ## Keys -/

theorem takeWhile_append_of_dropWhile {p : Char → Bool} (h : s.dropWhile p ≠ []) (t : List Char) :
    (s ++ t).takeWhile p = s.takeWhile p ∧ (s ++ t).dropWhile p = s.dropWhile p ++ t := by
  induction s with
  | nil => exact absurd rfl h
  | cons c s ih =>
      by_cases hc : p c
      · rw [List.dropWhile_cons_of_pos hc] at h
        obtain ⟨htake, hdrop⟩ := ih h
        simp [hc, htake, hdrop]
      · simp [hc]

theorem skipSpace_append (h : skipSpace s ≠ []) (t : List Char) :
    skipSpace (s ++ t) = skipSpace s ++ t :=
  (takeWhile_append_of_dropWhile h t).2

theorem ne_nil_of_skipSpace (h : skipSpace s ≠ []) : s ≠ [] := by
  rintro rfl
  exact h rfl

theorem readBare?_append (h : readBare? s = some (x, rest)) (hrest : rest ≠ []) (t : List Char) :
    readBare? (s ++ t) = some (x, rest ++ t) := by
  unfold readBare? at h
  obtain ⟨hname, heq⟩ := Option.ite_none_left_eq_some.mp h
  obtain ⟨rfl, rfl⟩ := Prod.mk.inj (Option.some.inj heq)
  obtain ⟨htake, hdrop⟩ := takeWhile_append_of_dropWhile hrest t
  rw [readBare?, htake, hdrop]
  exact if_neg hname

theorem readQuotedLine?_eq_none (h : c ≠ '"' ∧ c ≠ '\'') (s : List Char) :
    readQuotedLine? (c :: s) = none := by
  simp [readQuotedLine?, h]

theorem ne_mark_of_isBare (h : isBare c = true) : c ≠ '"' ∧ c ≠ '\'' := by
  constructor <;> rintro rfl <;> exact absurd h (by decide)

theorem readKeyPart?_append {part : String} (h : readKeyPart? s = some (part, rest))
    (hrest : rest ≠ []) (t : List Char) : readKeyPart? (s ++ t) = some (part, rest ++ t) := by
  obtain ⟨⟨x, left⟩, hread, heq⟩ := Option.map_eq_some_iff.mp h
  obtain ⟨rfl, rfl⟩ := Prod.mk.inj heq
  have hext : (readQuotedLine? (s ++ t) <|> readBare? (s ++ t)) = some (x, left ++ t) := by
    cases hquoted : readQuotedLine? s with
    | some r =>
        rw [hquoted] at hread
        cases hread
        rw [readQuotedLine?_append hquoted t]
        rfl
    | none =>
        rw [hquoted] at hread
        have hbare : readBare? s = some (x, left) := hread
        -- A bare key does not begin with a mark, so more text makes no string of it.
        have hnone : readQuotedLine? (s ++ t) = none := by
          cases s with
          | nil => cases hbare
          | cons c s =>
              refine readQuotedLine?_eq_none (ne_mark_of_isBare ?_) (s ++ t)
              by_contra hc
              simp [readBare?, hc] at hbare
        rw [hnone]
        exact readBare?_append hbare hrest t
  rw [readKeyPart?, hext]
  rfl

theorem readKeyPart?_nil : readKeyPart? [] = none := rfl

theorem readKeyTail?_nil (fuel : Nat) : readKeyTail? fuel [] = some ([], []) := by
  cases fuel <;> rfl

theorem readKeyTail?_eq_nil (hc : c ≠ '.') (fuel : Nat) (s : List Char) :
    readKeyTail? fuel (c :: s) = some ([], c :: s) := by
  cases fuel with
  | zero => rfl
  | succ fuel => simp [readKeyTail?, hc]

/-- Fuel that did not run out at a dot is enough. -/
theorem readKeyTail?_append {parts : List String} {fuel fuel' : Nat}
    (h : readKeyTail? fuel s = some (parts, rest)) (hrest : ∃ c ∈ rest.head?, c ≠ '.')
    (hfuel : fuel ≤ fuel') (t : List Char) :
    readKeyTail? fuel' (s ++ t) = some (parts, rest ++ t) := by
  have hne : rest ≠ [] := by
    rintro rfl
    obtain ⟨c, hc, _⟩ := hrest
    cases hc
  induction fuel generalizing s parts fuel' with
  | zero =>
      cases h
      obtain ⟨c, hc, hdot⟩ := hrest
      obtain ⟨tail, rfl⟩ := List.head?_eq_some_iff.mp hc
      exact readKeyTail?_eq_nil hdot fuel' (tail ++ t)
  | succ fuel ih =>
      obtain ⟨fuel', rfl⟩ : ∃ n, fuel' = n + 1 := ⟨fuel' - 1, by omega⟩
      cases s with
      | nil =>
          cases h
          exact absurd rfl hne
      | cons c s =>
          by_cases hc : c = '.'
          · subst hc
            obtain ⟨⟨part, mid⟩, hpart, h⟩ := Option.bind_eq_some_iff.mp h
            obtain ⟨⟨others, left⟩, htail, h⟩ := Option.bind_eq_some_iff.mp h
            cases h
            have hstart : skipSpace s ≠ [] := by
              intro hnil
              rw [hnil, readKeyPart?_nil] at hpart
              cases hpart
            have hmid : skipSpace mid ≠ [] := by
              intro hnil
              rw [hnil, readKeyTail?_nil] at htail
              cases htail
              exact hne rfl
            have hext := readKeyPart?_append hpart (ne_nil_of_skipSpace hmid) t
            rw [← skipSpace_append hstart] at hext
            rw [List.cons_append, readKeyTail?, hext]
            dsimp only [Option.bind_eq_bind, Option.bind_some]
            rw [skipSpace_append hmid, ih htail (by omega)]
            rfl
          · rw [readKeyTail?_eq_nil hc] at h
            cases h
            exact readKeyTail?_eq_nil hc _ _

theorem skipSpace_ne_nil_of_readKey? {key : KeyPath} (h : readKey? s = some (key, rest)) :
    skipSpace s ≠ [] := by
  intro hnil
  obtain ⟨_, hfirst, _⟩ := Option.bind_eq_some_iff.mp h
  rw [hnil, readKeyPart?_nil] at hfirst
  cases hfirst

theorem readKey?_append {key : KeyPath} (h : readKey? s = some (key, rest))
    (hrest : ∃ c ∈ rest.head?, c ≠ '.') (t : List Char) :
    readKey? (s ++ t) = some (key, rest ++ t) := by
  have hstart := skipSpace_ne_nil_of_readKey? h
  obtain ⟨⟨first, mid⟩, hfirst, h⟩ := Option.bind_eq_some_iff.mp h
  obtain ⟨⟨others, left⟩, htail, h⟩ := Option.bind_eq_some_iff.mp h
  obtain ⟨hcount, h⟩ := Option.ite_none_right_eq_some.mp h
  cases h
  have hmid : skipSpace mid ≠ [] := by
    intro hnil
    rw [hnil, readKeyTail?_nil] at htail
    cases htail
    obtain ⟨c, hc, _⟩ := hrest
    cases hc
  have hext := readKeyPart?_append hfirst (ne_nil_of_skipSpace hmid) t
  rw [← skipSpace_append hstart] at hext
  have hlength : mid.length ≤ (mid ++ t).length := by
    rw [List.length_append]
    omega
  rw [readKey?, hext]
  dsimp only [Option.bind_eq_bind, Option.bind_some]
  rw [skipSpace_append hmid, readKeyTail?_append htail hrest hlength]
  exact if_pos hcount

/-! ## Arrays and tables in braces -/

/-- A reader of values that makes the same of a value with anything else behind it, if
something ended the value before. -/
structure Extends (value? : List Char → Option (Item × List Char)) : Prop where
  nil : value? [] = none
  append : ∀ {s item rest}, value? s = some (item, rest) → Bounded rest → ∀ t,
    value? (s ++ t) = some (item, rest ++ t)

namespace Extends

variable {value? : List Char → Option (Item × List Char)} {item : Item} {fuel fuel' : Nat}

theorem readPair? (h : Extends value?) {pair : KeyPath × Item}
    (hread : readPair? value? s = some (pair, rest)) (hrest : Bounded rest) (t : List Char) :
    readPair? value? (s ++ t) = some (pair, rest ++ t) := by
  obtain ⟨⟨key, left⟩, hkey, hread⟩ := Option.bind_eq_some_iff.mp hread
  dsimp only at hread
  split at hread
  · next s' =>
    obtain ⟨⟨item, left⟩, hvalue, hread⟩ := Option.bind_eq_some_iff.mp hread
    cases hread
    have hstart : skipSpace s' ≠ [] := by
      intro hnil
      rw [hnil, h.nil] at hvalue
      cases hvalue
    have hkey := readKey?_append hkey ⟨'=', rfl, by decide⟩ t
    have hvalue := h.append hvalue hrest t
    rw [← skipSpace_append hstart] at hvalue
    exact Option.bind_eq_some_iff.mpr ⟨_, hkey, Option.bind_eq_some_iff.mpr ⟨_, hvalue, rfl⟩⟩
  · cases hread

theorem skipLines_append {inComment : Bool} (h : skipLines inComment s ≠ []) (t : List Char) :
    skipLines inComment (s ++ t) = skipLines inComment s ++ t := by
  induction s generalizing inComment with
  | nil => exact absurd rfl h
  | cons c s ih =>
      rw [List.cons_append]
      rw [skipLines] at h ⊢
      rw [skipLines]
      split_ifs at h ⊢
      · exact ih h
      · exact ih h
      · rfl
      · exact ih h
      · exact ih h
      · rfl

/-- Up to the line break, the comment, or what counts, there are only spaces. -/
theorem bounded_of_skipLines (h : skipLines false s = c :: rest) (hc : c ∈ stops) :
    Bounded s := by
  induction s with
  | nil => cases h
  | cons d s ih =>
      have hstop : isSpace d = false → d ∈ stops → Bounded (d :: s) := by
        intro hspace hd
        rw [Bounded, skipSpace, List.dropWhile_cons_of_neg (by simp [hspace])]
        exact ⟨d, rfl, hd⟩
      simp only [skipLines, Bool.false_eq_true, if_false] at h
      split_ifs at h with hbreak hspace hcode
      · subst hbreak
        exact hstop rfl (by decide)
      · rw [Bounded, skipSpace, List.dropWhile_cons_of_pos hspace]
        exact ih h
      · subst hcode
        exact hstop rfl (by decide)
      · cases h
        exact hstop (Bool.eq_false_iff.mpr hspace) hc

theorem readItems?_of_item {first : List Char} (hskip : skipLines false s = first)
    (hopen : ∀ tail, first ≠ ']' :: tail) :
    Toml.readItems? value? (fuel + 1) s = (value? first).bind fun r =>
      match skipLines false r.2 with
      | ',' :: s =>
          (Toml.readItems? value? fuel s).bind fun others => some (r.1 :: others.1, others.2)
      | ']' :: s => some ([r.1], s)
      | _ => none := by
  rw [Toml.readItems?, hskip]
  split
  · exact absurd rfl (hopen _)
  · rfl

theorem readItems? (h : Extends value?) {items : List Item}
    (hread : readItems? value? fuel s = some (items, rest)) (hfuel : fuel ≤ fuel') (t : List Char) :
    readItems? value? fuel' (s ++ t) = some (items, rest ++ t) := by
  induction fuel generalizing s items fuel' with
  | zero => cases hread
  | succ fuel ih =>
      obtain ⟨fuel', rfl⟩ : ∃ n, fuel' = n + 1 := ⟨fuel' - 1, by omega⟩
      cases hskip : skipLines false s with
      | nil =>
          rw [readItems?_of_item hskip (by simp), h.nil] at hread
          cases hread
      | cons c first =>
          have hwith : skipLines false (s ++ t) = c :: (first ++ t) := by
            rw [skipLines_append (by simp [hskip]), hskip]
            rfl
          by_cases hclose : c = ']'
          · subst hclose
            rw [Toml.readItems?, hskip] at hread
            cases hread
            rw [Toml.readItems?, hwith]
            rfl
          · have hopen : ∀ first tail, c :: first ≠ ']' :: tail := fun _ _ heq =>
              hclose (List.cons.inj heq).1
            rw [readItems?_of_item hskip (hopen _)] at hread
            rw [readItems?_of_item hwith (hopen _)]
            obtain ⟨⟨item, mid⟩, hvalue, hread⟩ := Option.bind_eq_some_iff.mp hread
            -- Whatever follows the item ends it.
            have hbetween : ∀ d tail, skipLines false mid = d :: tail → d ∈ stops →
                value? (c :: (first ++ t)) = some (item, mid ++ t) ∧
                  skipLines false (mid ++ t) = d :: (tail ++ t) := by
              intro d tail hskip hd
              refine ⟨h.append hvalue (bounded_of_skipLines hskip hd) t, ?_⟩
              rw [skipLines_append (by simp [hskip]), hskip]
              rfl
            dsimp only at hread
            split at hread
            · next tail hskip =>
              obtain ⟨hvalue, hskip⟩ := hbetween ',' tail hskip (by decide)
              obtain ⟨⟨others, left⟩, hitems, heq⟩ := Option.bind_eq_some_iff.mp hread
              cases heq
              rw [hvalue]
              dsimp only [Option.bind_some]
              rw [hskip]
              exact Option.bind_eq_some_iff.mpr ⟨_, ih hitems (Nat.le_of_succ_le_succ hfuel), rfl⟩
            · next tail hskip =>
              obtain ⟨hvalue, hskip⟩ := hbetween ']' tail hskip (by decide)
              cases hread
              rw [hvalue]
              dsimp only [Option.bind_some]
              rw [hskip]
              rfl
            · cases hread

theorem readPairs?_succ : Toml.readPairs? value? (fuel + 1) s =
    (Toml.readPair? value? s).bind fun r =>
      match skipSpace r.2 with
      | ',' :: s =>
          (Toml.readPairs? value? fuel s).bind fun others => some (r.1 :: others.1, others.2)
      | '}' :: s => some ([r.1], s)
      | _ => none :=
  rfl

theorem readPairs? (h : Extends value?) {pairs : List (KeyPath × Item)}
    (hread : readPairs? value? fuel s = some (pairs, rest)) (hfuel : fuel ≤ fuel') (t : List Char) :
    readPairs? value? fuel' (s ++ t) = some (pairs, rest ++ t) := by
  induction fuel generalizing s pairs fuel' with
  | zero => cases hread
  | succ fuel ih =>
      obtain ⟨fuel', rfl⟩ : ∃ n, fuel' = n + 1 := ⟨fuel' - 1, by omega⟩
      rw [readPairs?_succ] at hread ⊢
      obtain ⟨⟨pair, mid⟩, hpair, hread⟩ := Option.bind_eq_some_iff.mp hread
      have hbetween : ∀ d tail, skipSpace mid = d :: tail → d ∈ stops →
          Toml.readPair? value? (s ++ t) = some (pair, mid ++ t) ∧
            skipSpace (mid ++ t) = d :: (tail ++ t) := by
        intro d tail hskip hd
        have hbounded : Bounded mid := by
          rw [Bounded, hskip]
          exact ⟨d, rfl, hd⟩
        refine ⟨h.readPair? hpair hbounded t, ?_⟩
        rw [skipSpace_append (by simp [hskip]), hskip]
        rfl
      dsimp only at hread
      split at hread
      · next tail hskip =>
        obtain ⟨hpair, hskip⟩ := hbetween ',' tail hskip (by decide)
        obtain ⟨⟨others, left⟩, hpairs, heq⟩ := Option.bind_eq_some_iff.mp hread
        cases heq
        rw [hpair]
        dsimp only [Option.bind_some]
        rw [hskip]
        exact Option.bind_eq_some_iff.mpr ⟨_, ih hpairs (Nat.le_of_succ_le_succ hfuel), rfl⟩
      · next tail hskip =>
        obtain ⟨hpair, hskip⟩ := hbetween '}' tail hskip (by decide)
        cases hread
        rw [hpair]
        dsimp only [Option.bind_some]
        rw [hskip]
        rfl
      · cases hread

/-- The table that the pairs in braces make, if they make one. -/
def inlineTable? (r : List (KeyPath × Item) × List Char) : Option (Item × List Char) :=
  (inlineEntries? r.1).map fun entries => (.table .inline entries, r.2)

theorem readInline?_close (h : skipSpace s = '}' :: rest) :
    Toml.readInline? value? s = some (.table .inline [], rest) := by
  rw [Toml.readInline?, h]
  rfl

theorem readInline?_pairs (h : ∀ rest, skipSpace s ≠ '}' :: rest) :
    Toml.readInline? value? s = (Toml.readPairs? value? s.length s).bind inlineTable? := by
  unfold Toml.readInline?
  split
  · next hclose => exact absurd hclose (h _)
  · refine Option.bind_congr fun r _ => ?_
    dsimp only [inlineTable?]
    cases inlineEntries? r.1 <;> rfl

theorem readInline? (h : Extends value?)
    (hread : readInline? value? s = some (item, rest)) (t : List Char) :
    readInline? value? (s ++ t) = some (item, rest ++ t) := by
  by_cases hclose : ∃ tail, skipSpace s = '}' :: tail
  · obtain ⟨tail, hclose⟩ := hclose
    have hwith : skipSpace (s ++ t) = '}' :: (tail ++ t) := by
      rw [skipSpace_append (by simp [hclose]), hclose]
      rfl
    rw [readInline?_close hclose] at hread
    cases hread
    exact readInline?_close hwith
  · have hopen : ∀ tail, skipSpace s ≠ '}' :: tail := fun tail hskip => hclose ⟨tail, hskip⟩
    rw [readInline?_pairs hopen] at hread
    obtain ⟨⟨pairs, left⟩, hpairs, hread⟩ := Option.bind_eq_some_iff.mp hread
    obtain ⟨entries, hentries, heq⟩ := Option.map_eq_some_iff.mp hread
    cases heq
    have hstart : skipSpace s ≠ [] := by
      obtain ⟨fuel, hlength⟩ : ∃ fuel, s.length = fuel + 1 := by
        cases s with
        | nil => cases hpairs
        | cons c s => exact ⟨s.length, rfl⟩
      rw [hlength, readPairs?_succ] at hpairs
      obtain ⟨⟨pair, mid⟩, hpair, _⟩ := Option.bind_eq_some_iff.mp hpairs
      obtain ⟨_, hkey, _⟩ := Option.bind_eq_some_iff.mp hpair
      exact skipSpace_ne_nil_of_readKey? hkey
    have hwith : ∀ tail, skipSpace (s ++ t) ≠ '}' :: tail := by
      obtain ⟨c, after, hskip⟩ := List.exists_cons_of_ne_nil hstart
      rw [skipSpace_append hstart, hskip]
      rintro tail heq
      exact hopen after (hskip.trans (congrArg (· :: after) (List.cons.inj heq).1))
    have hlength : s.length ≤ (s ++ t).length := by
      rw [List.length_append]
      omega
    rw [readInline?_pairs hwith, h.readPairs? hpairs hlength]
    exact Option.map_eq_some_iff.mpr ⟨entries, hentries, rfl⟩

end Extends

theorem readValue?_nil (depth : Nat) : readValue? depth [] = none := by
  cases depth <;> rfl

theorem readValue?_scalar (hc : c ≠ '[' ∧ c ≠ '{') (depth : Nat) (s : List Char) :
    readValue? depth (c :: s) = (readScalar? (c :: s)).map fun r => (.scalar r.1, r.2) := by
  cases depth <;> simp [readValue?, hc]

theorem Extends.readValue? {depth : Nat} {item : Item} (h : Extends (readValue? depth))
    (hopen : c = '[' ∨ c = '{') (hread : readValue? (depth + 1) (c :: s) = some (item, rest))
    (t : List Char) : Toml.readValue? (depth + 1) (c :: s ++ t) = some (item, rest ++ t) := by
  rcases hopen with rfl | rfl
  · obtain ⟨⟨items, left⟩, hitems, heq⟩ := Option.map_eq_some_iff.mp hread
    cases heq
    have hlength : s.length ≤ (s ++ t).length := by
      rw [List.length_append]
      omega
    exact Option.map_eq_some_iff.mpr ⟨_, h.readItems? hitems hlength t, rfl⟩
  · exact h.readInline? hread t

theorem extends_readValue? (depth : Nat) : Extends (readValue? depth) := by
  have hscalar : ∀ {s : List Char} {item rest}, Bounded rest →
      (readScalar? s).map (fun r => (Item.scalar r.1, r.2)) = some (item, rest) → ∀ t,
      (readScalar? (s ++ t)).map (fun r => (Item.scalar r.1, r.2)) = some (item, rest ++ t) := by
    intro s item rest hrest hread t
    obtain ⟨⟨v, left⟩, hscalar, heq⟩ := Option.map_eq_some_iff.mp hread
    cases heq
    rw [readScalar?_append hscalar hrest]
    rfl
  induction depth with
  | zero => exact ⟨rfl, fun hread hrest t => hscalar hrest hread t⟩
  | succ depth ih =>
      refine ⟨readValue?_nil _, fun {s} item rest hread hrest t => ?_⟩
      cases s with
      | nil => cases hread
      | cons c s =>
          by_cases hopen : c = '[' ∨ c = '{'
          · exact ih.readValue? hopen hread t
          · rw [readValue?_scalar (not_or.mp hopen)] at hread
            rw [List.cons_append, readValue?_scalar (not_or.mp hopen), ← List.cons_append]
            exact hscalar hrest hread t

/-- What is read from an array or a table in braces is read whatever stands behind it. -/
theorem readValue?_append {depth : Nat} {item : Item} (hopen : c = '[' ∨ c = '{')
    (h : readValue? (depth + 1) (c :: s) = some (item, rest)) (t : List Char) :
    readValue? (depth + 1) (c :: s ++ t) = some (item, rest ++ t) :=
  (extends_readValue? depth).readValue? hopen h t

end DbRoute.Toml
