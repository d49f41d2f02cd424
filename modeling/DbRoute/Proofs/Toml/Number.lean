import DbRoute.Proofs.Text.Numeral
import DbRoute.Toml.Table

/-!
# Where numbers end

Nothing that TOML writes without marks, a number or a date or time, holds a line feed,
the start of a comment, a comma or a closing bracket. Whatever its readers make of a
text, they make the same of it with one of these and anything else behind it.
-/

namespace DbRoute.Toml

variable {α β : Type} {s t rest : List Char} {c : Char}

/-- Of the characters in a list, by a look at these and not at all there are. -/
scoped instance (priority := high) decidableForallChars {p : Char → Prop} [DecidablePred p]
    (s : List Char) : Decidable (∀ c ∈ s, p c) :=
  List.decidableBAll p s

/-! ## Readers that come to an end -/

/-- The characters that end all that is written without marks. -/
def stops : List Char := ['\n', '#', ',', ']', '}']

def Stops (t : List Char) : Prop := ∃ c ∈ t.head?, c ∈ stops

theorem Stops.exists_cons (h : Stops t) : ∃ c s, c ∈ stops ∧ t = c :: s := by
  obtain ⟨c, hc, hstop⟩ := h
  obtain ⟨s, rfl⟩ := List.head?_eq_some_iff.mp hc
  exact ⟨c, s, hstop, rfl⟩

/-- A reader that leaves the end of its text, and does not look past a stop. -/
structure Settled (read : List Char → Option (α × List Char)) : Prop where
  suffix : ∀ {s x rest}, read s = some (x, rest) → rest <:+ s
  unmoved : ∀ {t}, Stops t → ∀ s, read (s ++ t) = (read s).map fun r => (r.1, r.2 ++ t)

namespace Settled

variable {read other : List Char → Option (α × List Char)}
  {f : α × List Char → Option (β × List Char)}

theorem bind (h : Settled read) (hnext : ∀ x, Settled fun s => f (x, s)) :
    Settled fun s => (read s).bind f := by
  constructor
  · intro s y rest hread
    obtain ⟨⟨x, mid⟩, hx, hy⟩ := Option.bind_eq_some_iff.mp hread
    exact ((hnext x).suffix hy).trans (h.suffix hx)
  · intro t ht s
    rw [h.unmoved ht]
    cases read s with
    | none => rfl
    | some r => exact (hnext r.1).unmoved ht r.2

theorem done (x : α) : Settled fun s => some (x, s) := by
  refine ⟨fun h => ?_, fun _ _ => rfl⟩
  cases h
  exact List.suffix_rfl

theorem fail : Settled fun _ => (none : Option (α × List Char)) := by
  refine ⟨fun h => ?_, fun _ _ => rfl⟩
  cases h

theorem ite {p : Prop} [Decidable p] (h : Settled read) (hother : Settled other) :
    Settled fun s => if p then read s else other s := by
  split
  · exact h
  · exact hother

/-- A step that reads nothing. -/
theorem given {f : β → List Char → Option (α × List Char)} (x : Option β)
    (h : ∀ y, Settled (f y)) : Settled fun s => x.bind fun y => f y s := by
  cases x with
  | none => exact fail
  | some y => exact h y

theorem map (h : Settled read) (g : α → β) :
    Settled fun s => (read s).map fun r => (g r.1, r.2) := by
  constructor
  · intro s y rest hread
    obtain ⟨⟨x, mid⟩, hx, hy⟩ := Option.map_eq_some_iff.mp hread
    cases hy
    exact h.suffix hx
  · intro t ht s
    rw [h.unmoved ht, Option.map_map, Option.map_map]
    rfl

theorem orElse (h : Settled read) (hother : Settled other) :
    Settled fun s => read s <|> other s := by
  constructor
  · intro s x rest hread
    cases hfirst : read s with
    | none =>
        rw [hfirst] at hread
        exact hother.suffix hread
    | some r =>
        rw [hfirst] at hread
        cases hread
        exact h.suffix hfirst
  · intro t ht s
    rw [h.unmoved ht, hother.unmoved ht]
    cases read s with
    | none => rfl
    | some r => rfl

/-- A first character that is no stop, and what is read behind it. -/
theorem head {f : Char → List Char → Option (α × List Char)} (h : ∀ c, Settled (f c))
    (hstop : ∀ c ∈ stops, ∀ s, f c s = none) :
    Settled fun s => s.head?.bind fun c => f c s.tail := by
  constructor
  · intro s x rest hread
    obtain ⟨c, hc, hread⟩ := Option.bind_eq_some_iff.mp hread
    obtain ⟨s, rfl⟩ := List.head?_eq_some_iff.mp hc
    exact ((h c).suffix hread).trans (List.suffix_cons _ _)
  · intro t ht s
    cases s with
    | nil =>
        obtain ⟨c, tail, hc, rfl⟩ := ht.exists_cons
        exact hstop c hc tail
    | cons c s => exact (h c).unmoved ht s

/-- What is read in front of a stop, however far, is read with other text behind the stop. -/
theorem append (h : Settled read) {x : α} (hread : read s = some (x, rest))
    {space after : List Char} (hrest : rest = space ++ after) (hstops : Stops after) (t : List Char) :
    read (s ++ t) = some (x, rest ++ t) := by
  obtain ⟨c, next, hc, rfl⟩ := hstops.exists_cons
  have hstop : ∀ tail, Stops (c :: tail) := fun _ => ⟨c, rfl, hc⟩
  obtain ⟨front, rfl⟩ := h.suffix hread
  subst hrest
  rw [← List.append_assoc, h.unmoved (hstop next)] at hread
  obtain ⟨⟨y, left⟩, hfront, heq⟩ := Option.map_eq_some_iff.mp hread
  obtain ⟨rfl, hleft⟩ := Prod.mk.inj heq
  obtain rfl := List.append_cancel_right hleft
  rw [← List.append_assoc, List.append_assoc, List.cons_append, h.unmoved (hstop _), hfront]
  simp

end Settled

/-! ## Dates and times -/

theorem not_isDigit_of_stop (h : c ∈ stops) : c.isDigit = false :=
  (show ∀ c ∈ stops, c.isDigit = false by decide) c h

theorem settled_readFixed? (count : Nat) : Settled (readFixed? count) := by
  constructor
  · intro s n rest h
    unfold readFixed? at h
    split at h
    · cases h
    · obtain ⟨_, _, heq⟩ := Option.map_eq_some_iff.mp h
      cases heq
      exact List.drop_suffix _ _
  · intro t ht s
    obtain ⟨c, tail, hc, rfl⟩ := ht.exists_cons
    unfold readFixed?
    by_cases hlen : s.length < count
    · -- The stop is among the characters that should be digits.
      rw [if_pos hlen]
      split
      · rfl
      · have hmem : c ∈ (s ++ c :: tail).take count := by
          rw [List.take_append]
          obtain ⟨k, hk⟩ : ∃ k, count - s.length = k + 1 := ⟨count - s.length - 1, by omega⟩
          rw [hk]
          simp
        have hall : ((s ++ c :: tail).take count).all Char.isDigit = false :=
          List.all_eq_false.mpr ⟨c, hmem, by simp [not_isDigit_of_stop hc]⟩
        rw [Text.numberIn?_ten, hall]
        rfl
    · have hle : count ≤ s.length := Nat.le_of_not_lt hlen
      rw [if_neg hlen, if_neg (by rw [List.length_append]; omega),
        List.take_append_of_le_length hle, List.drop_append_of_le_length hle, Option.map_map]
      rfl

theorem bind_readChar? {d : Char} {f : List Char → Option α} (s : List Char) :
    (readChar? d s).bind f = s.head?.bind fun c => if c = d then f s.tail else none := by
  cases s with
  | nil => rfl
  | cons c s =>
      simp only [readChar?, List.head?_cons, Option.bind_some, List.tail_cons]
      split <;> rfl

/-- A mark between the parts of a number, a date or a time. -/
theorem Settled.skip {read : List Char → Option (α × List Char)} (d : Char) (hd : d ∉ stops)
    (h : Settled read) : Settled fun s => (readChar? d s).bind read := by
  rw [funext bind_readChar?]
  refine .head (fun c => .ite h .fail) fun c hc s => if_neg ?_
  rintro rfl
  exact hd hc

theorem settled_readDate? : Settled readDate? :=
  .bind (settled_readFixed? 4) fun _ =>
    .skip '-' (by decide) <| .bind (settled_readFixed? 2) fun _ =>
    .skip '-' (by decide) <| .bind (settled_readFixed? 2) fun _ =>
    .ite (.done _) .fail

theorem takeWhile_append_stop {p : Char → Bool} (hp : ∀ c ∈ stops, p c = false) (ht : Stops t)
    (s : List Char) : (s ++ t).takeWhile p = s.takeWhile p := by
  obtain ⟨c, tail, hc, rfl⟩ := ht.exists_cons
  induction s with
  | nil => simp [hp c hc]
  | cons d s ih => simp only [List.cons_append, List.takeWhile_cons, ih]

theorem dropWhile_append_stop {p : Char → Bool} (hp : ∀ c ∈ stops, p c = false) (ht : Stops t)
    (s : List Char) : (s ++ t).dropWhile p = s.dropWhile p ++ t := by
  obtain ⟨c, tail, hc, rfl⟩ := ht.exists_cons
  induction s with
  | nil => simp [hp c hc]
  | cons d s ih =>
      simp only [List.cons_append, List.dropWhile_cons, ih]
      split <;> rfl

theorem settled_readFraction : Settled fun s => some (readFraction s) := by
  have hdigits : ∀ c ∈ stops, c.isDigit = false := fun _ => not_isDigit_of_stop
  constructor
  · intro s n rest h
    unfold readFraction at h
    split at h
    · next digits =>
      dsimp only at h
      split at h
      · cases h
        exact (List.dropWhile_suffix _).trans (List.suffix_cons _ _)
      · cases h
        exact List.suffix_rfl
    · cases h
      exact List.suffix_rfl
  · intro t ht s
    cases s with
    | nil =>
        obtain ⟨c, tail, hc, rfl⟩ := ht.exists_cons
        have hdot : c ≠ '.' := by rintro rfl; exact absurd hc (by decide)
        simp [readFraction, hdot]
    | cons c s =>
        by_cases hc : c = '.'
        · subst hc
          simp only [List.cons_append, readFraction, takeWhile_append_stop hdigits ht,
            dropWhile_append_stop hdigits ht, Option.map_some]
          split <;> rfl
        · simp [readFraction, hc]

theorem settled_readTime? : Settled readTime? := by
  have htime : ∀ hour minute second, Settled fun s => (some (readFraction s)).bind fun r =>
      if hour ≤ 23 ∧ minute ≤ 59 ∧ second ≤ 60 then some (⟨hour, minute, second, r.1⟩, r.2)
      else (none : Option (Time × List Char)) := fun hour minute second =>
    settled_readFraction.bind fun nanosecond =>
      .ite (.done (Time.mk hour minute second nanosecond)) .fail
  exact .bind (settled_readFixed? 2) fun hour =>
    .skip ':' (by decide) <| .bind (settled_readFixed? 2) fun minute =>
    .skip ':' (by decide) <| .bind (settled_readFixed? 2) fun second =>
    htime hour minute second

theorem settled_readMinutes? : Settled readMinutes? :=
  .bind (settled_readFixed? 2) fun _ =>
    .skip ':' (by decide) <| .bind (settled_readFixed? 2) fun _ => .ite (.done _) .fail

theorem settled_readOffset : Settled fun s => some (readOffset s) := by
  constructor
  · intro s x rest h
    have hread : readOffset s = (x, rest) := Option.some.inj h
    cases s with
    | nil =>
        cases hread
        exact List.suffix_rfl
    | cons c s =>
        unfold readOffset at hread
        dsimp only at hread
        split at hread
        · cases hread
          exact List.suffix_cons _ _
        · cases hminutes : readMinutes? s with
          | none =>
              rw [hminutes] at hread
              cases hread
              exact List.suffix_rfl
          | some r =>
              have hafter : r.2 <:+ c :: s :=
                (settled_readMinutes?.suffix hminutes).trans (List.suffix_cons _ _)
              rw [hminutes] at hread
              dsimp only at hread
              split_ifs at hread <;> cases hread
              · exact hafter
              · exact hafter
              · exact List.suffix_rfl
  · intro t ht s
    cases s with
    | nil =>
        obtain ⟨c, tail, hc, rfl⟩ := ht.exists_cons
        have hno : c ≠ 'Z' ∧ c ≠ 'z' ∧ c ≠ '+' ∧ c ≠ '-' :=
          (show ∀ c ∈ stops, c ≠ 'Z' ∧ c ≠ 'z' ∧ c ≠ '+' ∧ c ≠ '-' by decide) c hc
        simp only [List.nil_append, readOffset, hno, or_self, if_false, Option.map_some]
        split <;> rfl
    | cons c s =>
        simp only [List.cons_append, readOffset, settled_readMinutes?.unmoved ht, Option.map_some]
        split
        · rfl
        · cases readMinutes? s with
          | none => rfl
          | some r =>
              simp only [Option.map_some]
              split_ifs <;> rfl

theorem settled_readAfterDate (date : Date) : Settled fun s => some (readAfterDate date s) := by
  constructor
  · intro s x rest h
    have hread : readAfterDate date s = (x, rest) := Option.some.inj h
    cases s with
    | nil =>
        cases hread
        exact List.suffix_rfl
    | cons c s =>
        unfold readAfterDate at hread
        dsimp only at hread
        split at hread
        · cases htime : readTime? s with
          | none =>
              rw [htime] at hread
              cases hread
              exact List.suffix_rfl
          | some r =>
              rw [htime] at hread
              cases hread
              have hoffset := settled_readOffset.suffix (s := r.2) rfl
              exact (hoffset.trans (settled_readTime?.suffix htime)).trans (List.suffix_cons _ _)
        · cases hread
          exact List.suffix_rfl
  · intro t ht s
    cases s with
    | nil =>
        obtain ⟨c, tail, hc, rfl⟩ := ht.exists_cons
        have hno : c ≠ 'T' ∧ c ≠ 't' ∧ c ≠ ' ' :=
          (show ∀ c ∈ stops, c ≠ 'T' ∧ c ≠ 't' ∧ c ≠ ' ' by decide) c hc
        simp only [List.nil_append, readAfterDate, hno, or_self, if_false, Option.map_some]
    | cons c s =>
        simp only [List.cons_append, readAfterDate, settled_readTime?.unmoved ht, Option.map_some]
        split
        · cases readTime? s with
          | none => rfl
          | some r =>
              have hoffset := Option.some.inj (settled_readOffset.unmoved ht r.2)
              simp only [Option.map_some, hoffset]
        · rfl

theorem settled_readDateTime? : Settled readDateTime? := by
  have hread : readDateTime? = fun s =>
      ((readDate? s).bind fun r => some (readAfterDate r.1 r.2)) <|>
        (readTime? s).map fun r => (.time r.1, r.2) := by
    funext s
    unfold readDateTime?
    cases readDate? s <;> rfl
  rw [hread]
  exact (settled_readDate?.bind settled_readAfterDate).orElse (settled_readTime?.map DateTime.time)

/-! ## Numerals -/

theorem digit?_of_stop (base : Nat) (h : c ∈ stops) : Text.digit? base c = none := by
  simp only [stops, List.mem_cons, List.not_mem_nil, or_false] at h
  rcases h with rfl | rfl | rfl | rfl | rfl <;> simp [Text.digit?]

theorem digit?_underscore (base : Nat) : Text.digit? base '_' = none := by
  simp [Text.digit?]

theorem moreDigits_of_digit {base : Nat} (h : (Text.digit? base c).isSome) (s : List Char) :
    moreDigits base (c :: s) = (c :: (moreDigits base s).1, (moreDigits base s).2) := by
  have hc : c ≠ '_' := by
    rintro rfl
    rw [digit?_underscore] at h
    cases h
  rw [moreDigits]
  · exact if_pos h
  · exact fun _ _ hunderscore => absurd hunderscore hc

theorem moreDigits_of_not_digit {base : Nat} (h : Text.digit? base c = none) (hc : c ≠ '_')
    (s : List Char) : moreDigits base (c :: s) = ([], c :: s) := by
  rw [moreDigits]
  · rw [h]
    rfl
  · exact fun _ _ hunderscore => absurd hunderscore hc

theorem moreDigits_underscore {base : Nat} (h : ∀ c ∈ s.head?, Text.digit? base c = none) :
    moreDigits base ('_' :: s) = ([], '_' :: s) := by
  cases s with
  | nil => simp [moreDigits, digit?_underscore]
  | cons c s => simp [moreDigits, h c rfl]

theorem moreDigits_stops (base : Nat) (ht : Stops t) : moreDigits base t = ([], t) := by
  obtain ⟨c, tail, hc, rfl⟩ := ht.exists_cons
  have hne : c ≠ '_' := by
    rintro rfl
    exact absurd hc (by decide)
  exact moreDigits_of_not_digit (digit?_of_stop base hc) hne tail

theorem settled_moreDigits (base : Nat) : Settled fun s => some (moreDigits base s) := by
  constructor
  · intro s x rest h
    have hrest : rest = (moreDigits base s).2 := by rw [Option.some.inj h]
    rw [hrest]
    clear h hrest
    fun_induction moreDigits base s with
    | case1 => exact List.suffix_rfl
    | case2 c s _ _ ih => exact ih.trans ((List.suffix_cons _ _).trans (List.suffix_cons _ _))
    | case3 c s _ => exact List.suffix_rfl
    | case4 c s _ _ _ ih => exact ih.trans (List.suffix_cons _ _)
    | case5 c s _ _ => exact List.suffix_rfl
  · intro t ht s
    refine congrArg some ?_
    fun_induction moreDigits base s with
    | case1 => exact moreDigits_stops base ht
    | case2 c s hdigit _ ih =>
        rw [List.cons_append, List.cons_append, moreDigits, if_pos hdigit, ih]
    | case3 c s hdigit =>
        exact moreDigits_underscore fun d hd => by
          obtain rfl := Option.some.inj hd
          exact Option.not_isSome_iff_eq_none.mp hdigit
    | case4 c s _ hdigit _ ih => rw [List.cons_append, moreDigits_of_digit hdigit, ih]
    | case5 c s hfirst hdigit =>
        rw [Option.not_isSome_iff_eq_none] at hdigit
        by_cases hc : c = '_'
        · -- An underscore before the stop stands at the end of the text.
          obtain rfl : s = [] := by
            cases s with
            | nil => rfl
            | cons d s => exact (hfirst d s hc rfl).elim
          obtain ⟨d, tail, hd, rfl⟩ := ht.exists_cons
          subst hc
          exact moreDigits_underscore fun x hx => by
            obtain rfl := Option.some.inj hx
            exact digit?_of_stop base hd
        · exact moreDigits_of_not_digit hdigit hc _

theorem settled_readDigits? (base : Nat) : Settled (readDigits? base) := by
  have hread : readDigits? base = fun s => s.head?.bind fun c =>
      if (Text.digit? base c).isSome then
        (some (moreDigits base s.tail)).map fun r => (c :: r.1, r.2)
      else none := by
    funext s
    cases s <;> rfl
  rw [hread]
  refine .head (fun c => .ite ((settled_moreDigits base).map _) .fail) fun c hc s => ?_
  rw [digit?_of_stop base hc]
  rfl

theorem settled_readSign : Settled fun s => some (readSign s) := by
  constructor
  · intro s x rest h
    have hread : readSign s = (x, rest) := Option.some.inj h
    unfold readSign at hread
    split at hread <;> cases hread
    · exact List.suffix_cons _ _
    · exact List.suffix_cons _ _
    · exact List.suffix_rfl
  · intro t ht s
    refine congrArg some ?_
    cases s with
    | nil =>
        obtain ⟨c, tail, hc, rfl⟩ := ht.exists_cons
        have hno : c ≠ '-' ∧ c ≠ '+' := (show ∀ c ∈ stops, c ≠ '-' ∧ c ≠ '+' by decide) c hc
        simp [readSign, hno]
    | cons c s =>
        by_cases hminus : c = '-'
        · subst hminus
          rfl
        · by_cases hplus : c = '+'
          · subst hplus
            rfl
          · simp [readSign, hminus, hplus]

/-- What is read behind a sign, knowing the sign. -/
theorem Settled.signed {f : Bool → List Char → Option (α × List Char)} (h : ∀ b, Settled (f b)) :
    Settled fun s => f (readSign s).1 (readSign s).2 :=
  settled_readSign.bind (f := fun r => f r.1 r.2) h

theorem settled_readWhole? : Settled readWhole? := by
  have hread : readWhole? = fun s =>
      ((readChar? '0' s).bind fun s => some (['0'], s)) <|> readDigits? 10 s := by
    funext s
    cases s with
    | nil => rfl
    | cons c s =>
        by_cases hc : c = '0'
        · subst hc
          rfl
        · simp [readWhole?, readChar?, hc]
  rw [hread]
  exact .orElse (.skip '0' (by decide) (.done _)) (settled_readDigits? 10)

theorem settled_readInBase? (base : Nat) : Settled (readInBase? base) :=
  .bind (settled_readDigits? base) fun _ => .given _ fun _ => .given _ fun value => .done value

/-- An integer in base 10, perhaps with a sign. -/
def readDecimal? (s : List Char) : Option (Int × List Char) := do
  let (digits, rest) ← readWhole? (readSign s).2
  return (← int64? (readSign s).1 (← Text.numberIn? 10 digits), rest)

theorem settled_readDecimal? : Settled readDecimal? := by
  have hread : ∀ negative, Settled fun s => do
      let (digits, rest) ← readWhole? s
      return (← int64? negative (← Text.numberIn? 10 digits), rest) := fun _ =>
    .bind settled_readWhole? fun _ => .given _ fun _ => .given _ fun value => .done value
  exact .signed hread

theorem readInteger?_eq_readDecimal? (h : c ≠ '0' ∨ ∀ d ∈ s.head?, d ∉ ['x', 'o', 'b']) :
    readInteger? (c :: s) = readDecimal? (c :: s) := by
  unfold readInteger?
  split
  · simp_all
  · simp_all
  · simp_all
  · rfl

theorem settled_readInteger? : Settled readInteger? := by
  constructor
  · intro s x rest h
    have hbase : ∀ base c d s, readInBase? base s = some (x, rest) → rest <:+ c :: d :: s :=
      fun base c d s h => ((settled_readInBase? base).suffix h).trans
        ((List.suffix_cons _ _).trans (List.suffix_cons _ _))
    unfold readInteger? at h
    split at h
    · exact hbase _ _ _ _ h
    · exact hbase _ _ _ _ h
    · exact hbase _ _ _ _ h
    · exact settled_readDecimal?.suffix h
  · intro t ht s
    have hdecimal := settled_readDecimal?.unmoved ht
    obtain ⟨c, tail, hc, rfl⟩ := ht.exists_cons
    have hzero : c ≠ '0' := by rintro rfl; exact absurd hc (by decide)
    cases s with
    | nil =>
        have hnil := hdecimal []
        rwa [List.nil_append, ← readInteger?_eq_readDecimal? (.inl hzero)] at hnil
    | cons first s =>
        by_cases hdecide : first ≠ '0' ∨ ∀ d ∈ s.head?, d ∉ ['x', 'o', 'b']
        · have hwith : first ≠ '0' ∨ ∀ d ∈ (s ++ c :: tail).head?, d ∉ ['x', 'o', 'b'] := by
            refine hdecide.imp_right fun hs d hd => ?_
            cases s with
            | nil =>
                obtain rfl := Option.some.inj hd
                exact (show ∀ d ∈ stops, d ∉ ['x', 'o', 'b'] by decide) c hc
            | cons e s => exact hs d hd
          rw [List.cons_append, readInteger?_eq_readDecimal? hwith,
            readInteger?_eq_readDecimal? hdecide]
          exact hdecimal (first :: s)
        · push Not at hdecide
          obtain ⟨rfl, d, hd, hmark⟩ := hdecide
          obtain ⟨s, rfl⟩ := List.head?_eq_some_iff.mp hd
          simp only [List.mem_cons, List.not_mem_nil, or_false] at hmark
          rcases hmark with rfl | rfl | rfl
          · exact (settled_readInBase? 16).unmoved ht s
          · exact (settled_readInBase? 8).unmoved ht s
          · exact (settled_readInBase? 2).unmoved ht s

theorem settled_readExponent? : Settled readExponent? := by
  have hsigned : ∀ negative : Bool, Settled fun s => do
      let (digits, rest) ← readDigits? 10 s
      let size ← Text.numberIn? 10 digits
      return (if negative then -(size : Int) else size, rest) := fun negative =>
    .bind (settled_readDigits? 10) fun _ => .given _ fun (size : Nat) =>
      .done (if negative then -(size : Int) else size)
  have hread : readExponent? = fun s => s.head?.bind fun c =>
      if c = 'e' ∨ c = 'E' then do
        let (digits, rest) ← readDigits? 10 (readSign s.tail).2
        let size ← Text.numberIn? 10 digits
        return (if (readSign s.tail).1 then -(size : Int) else size, rest)
      else none := by
    funext s
    cases s <;> rfl
  rw [hread]
  refine .head (fun c => .ite (.signed hsigned) .fail) fun c hc s => if_neg ?_
  rintro (rfl | rfl) <;> exact absurd hc (by decide)

theorem settled_readFraction? : Settled readFraction? := by
  have hread : readFraction? = fun s => (readChar? '.' s).bind (readDigits? 10) := by
    funext s
    cases s with
    | nil => rfl
    | cons c s =>
        by_cases hc : c = '.'
        · subst hc
          rfl
        · simp [readFraction?, readChar?, hc]
  rw [hread]
  exact .skip '.' (by decide) (settled_readDigits? 10)

/-- The fraction and the exponent of a float, one of which may be missing. -/
def readScale? (s : List Char) : Option ((List Char × Int) × List Char) :=
  ((readFraction? s).bind fun r =>
    ((readExponent? r.2).map fun e => ((r.1, e.1), e.2)) <|> some ((r.1, 0), r.2)) <|>
  (readExponent? s).map fun e => (([], e.1), e.2)

theorem readFloatTail?_eq (s : List Char) :
    readFloatTail? s = (readScale? s).map fun r => (r.1.1, r.1.2, r.2) := by
  unfold readFloatTail? readScale?
  cases readFraction? s with
  | none => cases readExponent? s <;> rfl
  | some r =>
      dsimp only [Option.bind_some]
      cases readExponent? r.2 <;> rfl

theorem settled_readScale? : Settled readScale? :=
  .orElse (.bind settled_readFraction? fun fraction =>
      .orElse (settled_readExponent?.map fun e => (fraction, e)) (.done (fraction, 0)))
    (settled_readExponent?.map fun e => ([], e))

theorem settled_readDecimalFloat? : Settled readDecimalFloat? := by
  have hsigned : ∀ negative : Bool, Settled fun s => do
      let (whole, rest) ← readWhole? s
      let (scale, rest) ← readScale? rest
      let digits ← Text.numberIn? 10 (whole ++ scale.1)
      let value := Binary64.ofDecimal negative digits (scale.2 - scale.1.length)
      if value = .infinity false then none else return (value, rest) := fun negative =>
    .bind settled_readWhole? fun whole => .bind settled_readScale? fun scale =>
      .given _ fun _ => .ite .fail (.done _)
  have hread : readDecimalFloat? = fun s => do
      let (whole, rest) ← readWhole? (readSign s).2
      let (scale, rest) ← readScale? rest
      let digits ← Text.numberIn? 10 (whole ++ scale.1)
      let value := Binary64.ofDecimal (readSign s).1 digits (scale.2 - scale.1.length)
      if value = .infinity false then none else return (value, rest) := by
    funext s
    unfold readDecimalFloat?
    simp only [readFloatTail?_eq]
    cases readWhole? (readSign s).2 with
    | none => rfl
    | some whole =>
        simp only [Option.bind_eq_bind, Option.bind_some]
        cases readScale? whole.2 <;> rfl
  rw [hread]
  exact .signed hsigned

/-- An infinity of the given sign or no number, letter by letter. -/
def readSpecial? (negative : Bool) (s : List Char) : Option (Binary64 × List Char) :=
  ((readChar? 'i' s).bind fun s => (readChar? 'n' s).bind fun s => (readChar? 'f' s).bind fun s =>
    some (.infinity negative, s)) <|>
  (readChar? 'n' s).bind fun s => (readChar? 'a' s).bind fun s => (readChar? 'n' s).bind fun s =>
    some (.nan, s)

theorem settled_readSpecial? (negative : Bool) : Settled (readSpecial? negative) :=
  .orElse (.skip 'i' (by decide) <| .skip 'n' (by decide) <| .skip 'f' (by decide) <| .done _)
    (.skip 'n' (by decide) <| .skip 'a' (by decide) <| .skip 'n' (by decide) <| .done _)

theorem readSpecialFloat?_eq (s : List Char) :
    readSpecialFloat? s = readSpecial? (readSign s).1 (readSign s).2 := by
  unfold readSpecialFloat? readSpecial?
  obtain ⟨negative, unsigned⟩ := readSign s
  simp only [bind_readChar?]
  rcases unsigned with _ | ⟨first, _ | ⟨second, _ | ⟨third, unsigned⟩⟩⟩ <;>
    simp only [List.head?_cons, List.head?_nil, List.tail_cons, Option.bind_some,
      Option.bind_none] <;> grind

theorem settled_readSpecialFloat? : Settled readSpecialFloat? := by
  rw [funext readSpecialFloat?_eq]
  exact .signed settled_readSpecial?

theorem settled_readNumberLike? : Settled readNumberLike? :=
  .orElse (settled_readDateTime?.map Scalar.dateTime)
    (.orElse (.map (.orElse settled_readDecimalFloat? settled_readSpecialFloat?) Scalar.float)
      (settled_readInteger?.map Scalar.integer))

end DbRoute.Toml
