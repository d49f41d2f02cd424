import DbRoute.Proofs.Toml.Written
import Mathlib.Data.List.Nodup

/-!
# Arrays and tables in braces as they are written

Between the brackets stand items or pairs with a comma between any two, those of an array on
as many lines as it pleases and perhaps with a comma behind the last one. What is written so
is read back, as deep as values may nest: if a reader reads back the values of some kind, the
readers of items and of pairs read back those that hold such values. TOML 1.0 has no bound
on the depth: the one of the reader is where their agreement ends.
-/

namespace DbRoute.Toml

variable {s t inner rest : List Char} {c : Char} {item : Item} {items : List Item}
  {entries : Entries}

/-! ## Spaces, comments and keys -/

abbrev Spaces := { s : List Char // ∀ c ∈ s, isSpace c = true }

abbrev Comment := { s : List Char // ∀ c ∈ s, isPlain c = true }

/-- What holds of all characters of one text and of the first one of the next. -/
theorem forall_head?_append {p : Char → Prop} (hs : ∀ c ∈ s, p c) (ht : ∀ c ∈ t.head?, p c) :
    ∀ c ∈ (s ++ t).head?, p c := by
  cases s with
  | nil => exact ht
  | cons d s =>
      rintro _ ⟨⟩
      exact hs d List.mem_cons_self

theorem forall_spaces {p : Char → Prop} (spaces : Spaces) (h : ∀ c ∈ [' ', '\t'], p c) :
    ∀ c ∈ spaces.val, p c := by
  intro c hc
  refine h c ?_
  simpa [isSpace] using spaces.property c hc

theorem skipSpace_spaces (spaces : Spaces) (hs : ∀ c ∈ s.head?, isSpace c = false) :
    skipSpace (spaces.val ++ s) = s := by
  rw [skipSpace, List.dropWhile_append_of_pos spaces.property, dropWhile_eq_self hs]

theorem Ends.spaces (h : Ends s) (spaces : Spaces) : Ends (spaces.val ++ s) :=
  forall_head?_append (forall_spaces spaces (by decide)) h

theorem WrittenKey.skipSpace_text (before : Spaces) (k : WrittenKey) (s : List Char) :
    skipSpace (before.val ++ (k.text ++ s)) = k.text ++ s := by
  obtain ⟨d, tail, htext, hd⟩ := k.exists_text_eq_cons
  simp only [List.mem_cons, not_or] at hd
  refine skipSpace_spaces before ?_
  rw [htext]
  rintro _ ⟨⟩
  simp [isSpace, hd]

theorem readKey?_text (before : Spaces) (k : WrittenKey) (after : Spaces) (hc : c ∈ ['=', ']'])
    (s : List Char) :
    readKey? (before.val ++ (k.text ++ (after.val ++ c :: s))) = some (⟨[], k.name⟩, c :: s) := by
  have hmark : isSpace c = false ∧ isBare c = false ∧ c ≠ '.' := by
    revert c
    decide
  have hpart : readKeyPart? (k.text ++ (after.val ++ c :: s)) =
      some (k.name, after.val ++ c :: s) := by
    refine k.readKeyPart?_text (forall_head?_append (forall_spaces after (by decide)) ?_)
    rintro _ ⟨⟩
    exact hmark.2.1
  have hend : skipSpace (after.val ++ c :: s) = c :: s :=
    skipSpace_spaces after (by rintro _ ⟨⟩; exact hmark.1)
  rw [readKey?, k.skipSpace_text, hpart]
  dsimp only [Option.bind_eq_bind, Option.bind_some]
  rw [hend, readKeyTail?_eq_nil hmark.2.2]
  rfl

/-- A key, the equals sign, and the text of a value. -/
def pairText (key : WrittenKey) (before after : Spaces) (value : List Char) : List Char :=
  key.text ++ before.val ++ '=' :: (after.val ++ value)

theorem readPair?_pairText {value? : List Char → Option (Item × List Char)}
    (indent : Spaces) (key : WrittenKey) (before after : Spaces)
    (hvalue : value? (t ++ rest) = some (item, rest))
    (ht : ∀ c ∈ (t ++ rest).head?, isSpace c = false) :
    readPair? value? (indent.val ++ (pairText key before after t ++ rest)) =
      some ((⟨[], key.name⟩, item), rest) := by
  have hkey := readKey?_text indent key before (c := '=') (by decide) (after.val ++ (t ++ rest))
  have hskip := skipSpace_spaces after ht
  simp [readPair?, pairText, hkey, hskip, hvalue]

/-! ## Entries under distinct keys -/

section

variable {key : String} {more : Entries}

/-- The keys of the entries, in their order. -/
def Entries.names (entries : Entries) : List String := entries.map Prod.fst

theorem Entries.has_eq_false (h : key ∉ entries.names) : entries.has key = false := by
  rw [has, List.any_eq_false]
  intro entry hentry hkey
  exact h (List.mem_map.mpr ⟨entry, hentry, eq_of_beq hkey⟩)

theorem Entries.names_append_singleton :
    Entries.names (entries ++ [(key, item)]) = entries.names ++ [key] :=
  List.map_append

theorem not_mem_of_nodup {name : String} {names more : List String}
    (h : (names ++ name :: more).Nodup) : name ∉ names :=
  fun hmem => List.disjoint_of_nodup_append h hmem List.mem_cons_self

/-- The entry as a pair whose key has one part. -/
def onePart (entry : String × Item) : KeyPath × Item := (⟨[], entry.1⟩, entry.2)

theorem foldlM_onePart (h : (entries.names ++ more.names).Nodup) :
    (more.map onePart).foldlM (fun entries pair => entries.add? pair.1.last pair.2 pair.1.tables)
      entries = some (entries ++ more) := by
  induction more generalizing entries with
  | nil => simp
  | cons entry more ih =>
      have hkey : entry.1 ∉ entries.names := not_mem_of_nodup h
      have hnext : (Entries.names (entries ++ [entry]) ++ Entries.names more).Nodup := by
        rw [Entries.names_append_singleton, List.append_assoc]
        exact h
      have hadd : entries.add? entry.1 entry.2 [] = some (entries ++ [entry]) := by
        simp [Entries.add?, Entries.has_eq_false hkey, Entries.append]
      have hfill := ih hnext
      rw [List.append_assoc] at hfill
      rw [List.map_cons, List.foldlM_cons, onePart, hadd]
      exact hfill

theorem inlineEntries?_onePart (h : entries.names.Nodup) :
    inlineEntries? (entries.map onePart) = some entries := by
  have hnames : (Entries.names [] ++ entries.names).Nodup := h
  exact foldlM_onePart hnames

end

/-! ## The grammar -/

/-- Spaces, line breaks and comments, as they may stand around the items of an array. -/
inductive IsGap : List Char → Prop
  | nil : IsGap []
  | space {c : Char} {s : List Char} : isSpace c = true → IsGap s → IsGap (c :: s)
  | lineBreak {s : List Char} : IsGap s → IsGap ('\n' :: s)
  | comment (text : Comment) {s : List Char} : IsGap s → IsGap ('#' :: (text.val ++ '\n' :: s))

section

variable (V : List Char → Item → Prop)

/-- The items of an array. A comma may stand behind the last one. -/
inductive IsItems : List Char → List Item → Prop
  | none {gap : List Char} : IsGap gap → IsItems gap []
  | last {before text after : List Char} {item : Item} :
      IsGap before → V text item → IsGap after → IsItems (before ++ (text ++ after)) [item]
  | more {before text after others : List Char} {item : Item} {items : List Item} :
      IsGap before → V text item → IsGap after → IsItems others items →
      IsItems (before ++ (text ++ (after ++ ',' :: others))) (item :: items)

/-- A pair of a table in braces. -/
inductive IsPair : List Char → String × Item → Prop
  | mk (indent : Spaces) (key : WrittenKey) (before after : Spaces) {text : List Char}
      {item : Item} : V text item →
      IsPair (indent.val ++ pairText key before after text) (key.name, item)

/-- The pairs of a table in braces that is not empty. -/
inductive IsPairs : List Char → Entries → Prop
  | last {text : List Char} {entry : String × Item} (behind : Spaces) :
      IsPair V text entry → IsPairs (text ++ behind.val) [entry]
  | more {text others : List Char} {entry : String × Item} {entries : Entries} (behind : Spaces) :
      IsPair V text entry → IsPairs others entries →
      IsPairs (text ++ (behind.val ++ ',' :: others)) (entry :: entries)

/-- An array or a table in braces. No key stands twice in a table. -/
inductive IsNested : List Char → Item → Prop
  | array {inner : List Char} {items : List Item} :
      IsItems V inner items → IsNested ('[' :: (inner ++ [']'])) (.array items)
  | empty (spaces : Spaces) : IsNested ('{' :: (spaces.val ++ ['}'])) (.table .inline [])
  | table {inner : List Char} {entries : Entries} :
      IsPairs V inner entries → entries.names.Nodup →
      IsNested ('{' :: (inner ++ ['}'])) (.table .inline entries)

end

/-- A scalar, or scalars in at most `depth` arrays and tables in braces around each other. -/
def IsValue : Nat → List Char → Item → Prop
  | 0, t, item => ∃ v : WrittenScalar, t = v.text ∧ item = .scalar v.scalar
  | depth + 1, t, item =>
      (∃ v : WrittenScalar, t = v.text ∧ item = .scalar v.scalar) ∨
        IsNested (IsValue depth) t item

/-! ## Reading it back -/

theorem skipLines_eq_self (h : ∀ c ∈ s.head?, c ∉ [' ', '\t', '\n', '#']) :
    skipLines false s = s := by
  cases s with
  | nil => rfl
  | cons c s =>
      have hc := h c rfl
      simp only [List.mem_cons, not_or] at hc
      simp [skipLines, isSpace, hc]

theorem skipLines_comment (text : Comment) (s : List Char) :
    skipLines true (text.val ++ '\n' :: s) = skipLines false s := by
  obtain ⟨text, htext⟩ := text
  induction text with
  | nil => rfl
  | cons c text ih =>
      obtain ⟨hc, htext⟩ := List.forall_mem_cons.mp htext
      have hbreak : c ≠ '\n' := by
        rintro rfl
        cases hc
      rw [List.cons_append, skipLines, if_neg hbreak, if_pos rfl, if_pos hc]
      exact ih htext

namespace IsGap

variable {gap : List Char}

theorem skipLines_append (h : IsGap gap) (hs : ∀ c ∈ s.head?, c ∉ [' ', '\t', '\n', '#']) :
    skipLines false (gap ++ s) = s := by
  induction h with
  | nil => exact skipLines_eq_self hs
  | @space c gap hc _ ih =>
      have hbreak : c ≠ '\n' := by
        rintro rfl
        cases hc
      rw [List.cons_append, skipLines, if_neg hbreak, if_neg (by decide), if_pos hc, ih]
  | lineBreak _ ih => exact ih
  | comment text _ ih =>
      rw [List.cons_append, List.append_assoc]
      exact (skipLines_comment text _).trans ih

theorem ends (h : IsGap gap) (hs : Ends s) : Ends (gap ++ s) := by
  cases h with
  | nil => exact hs
  | space hc _ =>
      rintro _ ⟨⟩
      rcases Bool.or_eq_true_iff.mp hc with h | h <;> rw [eq_of_beq h] <;> decide
  | lineBreak _ =>
      rintro _ ⟨⟩
      decide
  | comment _ _ =>
      rintro _ ⟨⟩
      decide

end IsGap

/-- A reader that reads back the values of some kind, whatever ends them. -/
structure Reads (V : List Char → Item → Prop)
    (value? : List Char → Option (Item × List Char)) : Prop where
  opens : ∀ {t item}, V t item → ∃ c s, t = c :: s ∧ c ∉ [' ', '\t', '\n', '#', ']']
  read : ∀ {t item rest}, V t item → Ends rest → value? (t ++ rest) = some (item, rest)

namespace Reads

variable {V : List Char → Item → Prop} {value? : List Char → Option (Item × List Char)}
  {fuel : Nat}

/-- One item of an array with what stands around it. -/
theorem readItems?_item (h : Reads V value?) {before text after : List Char}
    (hbefore : IsGap before) (hvalue : V text item) (hafter : IsGap after) (hc : c ∈ [',', ']'])
    (s : List Char) :
    readItems? value? (fuel + 1) (before ++ (text ++ (after ++ c :: s))) =
      match c :: s with
      | ',' :: s =>
          (readItems? value? fuel s).bind fun others => some (item :: others.1, others.2)
      | ']' :: s => some ([item], s)
      | _ => none := by
  have hmark : c ∉ [' ', '\t', '\n', '#'] ∧ Ends (c :: s) := by
    rw [List.mem_pair] at hc
    rcases hc with rfl | rfl <;> exact ⟨by decide, by rintro _ ⟨⟩; decide⟩
  obtain ⟨d, tail, rfl, hd⟩ := h.opens hvalue
  simp only [List.mem_cons, not_or] at hd
  have hskip : skipLines false (before ++ (d :: tail ++ (after ++ c :: s))) =
      d :: tail ++ (after ++ c :: s) := by
    refine hbefore.skipLines_append ?_
    rintro _ ⟨⟩
    simp [hd]
  have hopen : ∀ more, d :: tail ++ (after ++ c :: s) ≠ ']' :: more := fun _ heq =>
    hd.2.2.2.2.1 (List.cons.inj heq).1
  have hend : skipLines false (after ++ c :: s) = c :: s := by
    refine hafter.skipLines_append ?_
    rintro _ ⟨⟩
    exact hmark.1
  rw [Extends.readItems?_of_item hskip hopen, h.read hvalue (hafter.ends hmark.2)]
  rcases List.mem_pair.mp hc with rfl | rfl <;> simp [hend]

theorem readItems? (h : Reads V value?) (hitems : IsItems V inner items)
    (hfuel : inner.length < fuel) (rest : List Char) :
    readItems? value? fuel (inner ++ ']' :: rest) = some (items, rest) := by
  induction hitems generalizing fuel with
  | none hgap =>
      obtain ⟨n, rfl⟩ := Nat.exists_eq_add_one.mpr (Nat.zero_lt_of_lt hfuel)
      rw [Toml.readItems?, hgap.skipLines_append (by rintro _ ⟨⟩; decide)]
      rfl
  | last hbefore hvalue hafter =>
      obtain ⟨n, rfl⟩ := Nat.exists_eq_add_one.mpr (Nat.zero_lt_of_lt hfuel)
      rw [List.append_assoc, List.append_assoc]
      exact h.readItems?_item hbefore hvalue hafter (by decide) rest
  | more hbefore hvalue hafter _ ih =>
      obtain ⟨n, rfl⟩ := Nat.exists_eq_add_one.mpr (Nat.zero_lt_of_lt hfuel)
      simp only [List.length_append, List.length_cons] at hfuel
      rw [List.append_assoc, List.append_assoc, List.append_assoc]
      exact (h.readItems?_item hbefore hvalue hafter (by decide) _).trans
        (Option.bind_eq_some_iff.mpr ⟨_, ih (by omega), rfl⟩)

theorem readPair? (h : Reads V value?) {entry : String × Item} (hpair : IsPair V t entry)
    (hrest : Ends rest) : readPair? value? (t ++ rest) = some (onePart entry, rest) := by
  cases hpair with
  | mk indent key before after hvalue =>
      obtain ⟨c, s, htext, hc⟩ := h.opens hvalue
      simp only [List.mem_cons, not_or] at hc
      rw [List.append_assoc]
      refine readPair?_pairText indent key before after (h.read hvalue hrest) ?_
      rw [htext]
      rintro _ ⟨⟩
      simp [isSpace, hc]

/-- One pair of a table in braces with the spaces behind it. -/
theorem readPairs?_pair (h : Reads V value?) {entry : String × Item} (hpair : IsPair V t entry)
    (behind : Spaces) (hc : c ∈ [',', '}']) (s : List Char) :
    readPairs? value? (fuel + 1) (t ++ (behind.val ++ c :: s)) =
      match c :: s with
      | ',' :: s =>
          (readPairs? value? fuel s).bind fun others => some (onePart entry :: others.1, others.2)
      | '}' :: s => some ([onePart entry], s)
      | _ => none := by
  have hmark : isSpace c = false ∧ Ends (c :: s) := by
    rw [List.mem_pair] at hc
    rcases hc with rfl | rfl <;> exact ⟨rfl, by rintro _ ⟨⟩; decide⟩
  have hskip : skipSpace (behind.val ++ c :: s) = c :: s :=
    skipSpace_spaces behind (by rintro _ ⟨⟩; exact hmark.1)
  rw [Extends.readPairs?_succ, h.readPair? hpair (hmark.2.spaces behind)]
  rcases List.mem_pair.mp hc with rfl | rfl <;> simp [hskip]

theorem readPairs? (h : Reads V value?) (hpairs : IsPairs V inner entries)
    (hfuel : inner.length < fuel) (rest : List Char) :
    readPairs? value? fuel (inner ++ '}' :: rest) = some (entries.map onePart, rest) := by
  induction hpairs generalizing fuel with
  | last behind hpair =>
      obtain ⟨n, rfl⟩ := Nat.exists_eq_add_one.mpr (Nat.zero_lt_of_lt hfuel)
      rw [List.append_assoc]
      exact h.readPairs?_pair hpair behind (by decide) rest
  | more behind hpair _ ih =>
      obtain ⟨n, rfl⟩ := Nat.exists_eq_add_one.mpr (Nat.zero_lt_of_lt hfuel)
      simp only [List.length_append, List.length_cons] at hfuel
      rw [List.append_assoc, List.append_assoc]
      exact (h.readPairs?_pair hpair behind (by decide) _).trans
        (Option.bind_eq_some_iff.mpr ⟨_, ih (by omega), rfl⟩)

end Reads

/-- A table with a pair in it does not close at once. -/
theorem IsPairs.skipSpace_append {V : List Char → Item → Prop} (h : IsPairs V inner entries)
    (s tail : List Char) : skipSpace (inner ++ s) ≠ '}' :: tail := by
  have hpair : ∀ {t entry}, IsPair V t entry → ∀ s, skipSpace (t ++ s) ≠ '}' :: tail := by
    rintro _ _ ⟨indent, key, before, after, hvalue⟩ s heq
    obtain ⟨c, more, htext, hc⟩ := key.exists_text_eq_cons
    rw [pairText, List.append_assoc, List.append_assoc, List.append_assoc, key.skipSpace_text,
      htext] at heq
    refine hc ?_
    rw [(List.cons.inj heq).1]
    decide
  cases h with
  | last behind h =>
      rw [List.append_assoc]
      exact hpair h _
  | more behind h _ =>
      rw [List.append_assoc]
      exact hpair h _

theorem WrittenScalar.exists_text_eq_cons (v : WrittenScalar) :
    ∃ c s, v.text = c :: s ∧ c ∉ [' ', '\t', '\n', '#', ']', '[', '{'] := by
  cases v with
  | string w => exact ⟨_, _, rfl, by decide⟩
  | integer value low high =>
      obtain ⟨c, s, htext, hfirst⟩ := exists_toString_eq_cons value
      have hall : ∀ c ∈ [' ', '\t', '\n', '#', ']', '[', '{'], ¬(c = '-' ∨ c.isDigit = true) := by
        decide
      exact ⟨c, s, htext, fun hmem => hall c hmem hfirst⟩
  | boolean value => cases value <;> exact ⟨_, _, rfl, by decide⟩

theorem readValue?_writtenScalar (depth : Nat) (v : WrittenScalar) (hrest : Ends rest) :
    readValue? depth (v.text ++ rest) = some (.scalar v.scalar, rest) := by
  obtain ⟨c, s, htext, hc⟩ := v.exists_text_eq_cons
  simp only [List.mem_cons, not_or] at hc
  have hread := readScalar?_text v hrest
  rw [htext, List.cons_append] at hread
  rw [htext, List.cons_append, readValue?_scalar ⟨hc.2.2.2.2.2.1, hc.2.2.2.2.2.2.1⟩, hread]
  rfl

theorem IsNested.exists_eq_cons {V : List Char → Item → Prop} (h : IsNested V t item) :
    ∃ c s, t = c :: s ∧ (c = '[' ∨ c = '{') := by
  cases h with
  | array _ => exact ⟨_, _, rfl, .inl rfl⟩
  | empty _ => exact ⟨_, _, rfl, .inr rfl⟩
  | table _ _ => exact ⟨_, _, rfl, .inr rfl⟩

theorem Reads.readValue? {V : List Char → Item → Prop} {depth : Nat}
    (h : Reads V (readValue? depth)) (hnested : IsNested V t item) (rest : List Char) :
    readValue? (depth + 1) (t ++ rest) = some (item, rest) := by
  cases hnested with
  | @array inner items hitems =>
      have hlength : inner.length < (inner ++ ']' :: rest).length := by simp
      have hread := h.readItems? hitems hlength rest
      rw [List.cons_append, List.append_assoc]
      exact Option.map_eq_some_iff.mpr ⟨_, hread, rfl⟩
  | empty spaces =>
      rw [List.cons_append, List.append_assoc]
      exact Extends.readInline?_close (skipSpace_spaces spaces (by rintro _ ⟨⟩; rfl))
  | @table inner entries hpairs hnames =>
      have hlength : inner.length < (inner ++ '}' :: rest).length := by simp
      have hread := h.readPairs? hpairs hlength rest
      rw [List.cons_append, List.append_assoc]
      refine (Extends.readInline?_pairs (hpairs.skipSpace_append _)).trans ?_
      refine Option.bind_eq_some_iff.mpr ⟨_, hread, ?_⟩
      rw [Extends.inlineTable?, inlineEntries?_onePart hnames]
      rfl

/-- By induction on the depth: what is read back one level below is all that the readers of
items and pairs ask for. -/
theorem reads_isValue (depth : Nat) : Reads (IsValue depth) (readValue? depth) := by
  have hscalar : ∀ v : WrittenScalar,
      ∃ c s, v.text = c :: s ∧ c ∉ [' ', '\t', '\n', '#', ']'] := by
    intro v
    obtain ⟨c, s, htext, hc⟩ := v.exists_text_eq_cons
    refine ⟨c, s, htext, ?_⟩
    simp only [List.mem_cons, not_or] at hc ⊢
    tauto
  induction depth with
  | zero =>
      constructor
      · rintro _ _ ⟨v, rfl, rfl⟩
        exact hscalar v
      · rintro _ _ _ ⟨v, rfl, rfl⟩ hrest
        exact readValue?_writtenScalar 0 v hrest
  | succ depth ih =>
      constructor
      · rintro _ _ (⟨v, rfl, rfl⟩ | hnested)
        · exact hscalar v
        · obtain ⟨c, s, htext, hc⟩ := hnested.exists_eq_cons
          exact ⟨c, s, htext, by rcases hc with rfl | rfl <;> decide⟩
      · rintro _ _ _ (⟨v, rfl, rfl⟩ | hnested) hrest
        · exact readValue?_writtenScalar (depth + 1) v hrest
        · exact ih.readValue? hnested _

/-- Behind more brackets than values nest, nothing is read, whatever follows them. -/
theorem readValue?_too_deep (depth : Nat) (s : List Char) :
    readValue? depth (List.replicate (depth + 1) '[' ++ s) = none := by
  induction depth with
  | zero =>
      have hscalar : readScalar? ('[' :: s) = none := by
        rw [readScalar?, readNumberLike?_eq_none (by decide)]
        rfl
      exact Option.map_eq_none_iff.mpr hscalar
  | succ depth ih =>
      rw [List.replicate_succ, List.cons_append] at ih
      have hskip : skipLines false ('[' :: (List.replicate depth '[' ++ s)) =
          '[' :: (List.replicate depth '[' ++ s) :=
        skipLines_eq_self (by rintro _ ⟨⟩; decide)
      rw [List.replicate_succ, List.replicate_succ, List.cons_append, List.cons_append]
      apply Option.map_eq_none_iff.mpr
      rw [List.length_cons, Extends.readItems?_of_item hskip (by rintro _ ⟨⟩), ih]
      rfl

end DbRoute.Toml
