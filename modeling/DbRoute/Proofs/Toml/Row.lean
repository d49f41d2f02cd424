import DbRoute.Proofs.Toml.Nested
import DbRoute.Toml.Document

/-!
# Lines as they are written

A line is blank, an entry or the header of a table, with spaces wherever the grammar has
them and perhaps a comment. The value of an entry is a scalar, or an array or a table in
braces of any shape. Each line is read back from its text.
-/

namespace DbRoute.Toml

variable {s t rest : List Char} {c : Char}

/-! ## Values -/

/-- An array or a table in braces, as deep as the reader agrees with TOML 1.0 that they nest. -/
structure WrittenNested where
  text : List Char
  item : Item
  opens : ∃ c ∈ text.head?, c = '[' ∨ c = '{'
  closes : ∃ c ∈ text.getLast?, c = ']' ∨ c = '}'
  /-- The grammar gives it; or it holds TOML that the grammar leaves out, such as floats, dates
  and dotted keys, and then the reader's agreement with TOML 1.0 on it is assumed. -/
  valid : IsValue maxNesting (joinLineBreaks text) item ∨
    readValue? maxNesting (joinLineBreaks text) = some (item, [])

inductive WrittenItem where
  | scalar (value : WrittenScalar)
  | nested (value : WrittenNested)

namespace WrittenItem

def text : WrittenItem → List Char
  | scalar value => value.text
  | nested value => value.text

/-- The text with single line feeds for all line breaks. -/
def joined : WrittenItem → List Char
  | scalar value => value.text
  | nested value => joinLineBreaks value.text

/-- The value as it is read. -/
def item : WrittenItem → Item
  | scalar value => .scalar value.scalar
  | nested value => value.item

end WrittenItem

theorem joinLineBreaks_cons (hc : c ≠ '\r') (s : List Char) :
    joinLineBreaks (c :: s) = c :: joinLineBreaks s :=
  joinLineBreaks.eq_3 _ _ (fun _ h => absurd h hc)

theorem joinLineBreaks_of_no_return (h : '\r' ∉ s) (t : List Char) :
    joinLineBreaks (s ++ t) = s ++ joinLineBreaks t := by
  induction s with
  | nil => rfl
  | cons c s ih =>
      rw [List.mem_cons, not_or] at h
      rw [List.cons_append, joinLineBreaks_cons (Ne.symm h.1), ih h.2, List.cons_append]

theorem mem_getLast?_cons (h : c ∈ s.getLast?) (d : Char) : c ∈ (d :: s).getLast? := by
  rw [Option.mem_def, List.getLast?_cons, Option.mem_def.mp h]
  rfl

/-- A text that does not end in a carriage return does not end inside a line break. -/
theorem joinLineBreaks_append (h : ∀ c ∈ s.getLast?, c ≠ '\r') (t : List Char) :
    joinLineBreaks (s ++ t) = joinLineBreaks s ++ joinLineBreaks t := by
  fun_induction joinLineBreaks s with
  | case1 => rfl
  | case2 s ih =>
      refine congrArg ('\n' :: ·) (ih fun c hc => h c ?_)
      exact mem_getLast?_cons (mem_getLast?_cons hc _) _
  | case3 c s hbreak ih =>
      have hstay : ∀ more, c = '\r' → s ++ t = '\n' :: more → False := by
        intro more hc hs
        cases s with
        | nil => exact h c rfl hc
        | cons d s =>
            rw [List.cons_append] at hs
            exact hbreak s hc (by rw [(List.cons.inj hs).1])
      rw [List.cons_append, joinLineBreaks.eq_3 _ _ hstay,
        ih fun d hd => h d (mem_getLast?_cons hd c), List.cons_append]

theorem WrittenNested.exists_joined_eq_cons (v : WrittenNested) :
    ∃ c s, joinLineBreaks v.text = c :: s ∧ (c = '[' ∨ c = '{') := by
  obtain ⟨c, hhead, hc⟩ := v.opens
  obtain ⟨s, htext⟩ := List.head?_eq_some_iff.mp hhead
  have hreturn : c ≠ '\r' := by rcases hc with rfl | rfl <;> decide
  exact ⟨c, joinLineBreaks s, by rw [htext, joinLineBreaks_cons hreturn], hc⟩

/-- Whatever the grammar gives is read. -/
theorem WrittenNested.readValue?_joined (v : WrittenNested) :
    readValue? maxNesting (joinLineBreaks v.text) = some (v.item, []) := by
  rcases v.valid with hvalue | hread
  · have hends : Ends [] := by simp [Ends]
    have hread := (reads_isValue maxNesting).read hvalue hends
    rwa [List.append_nil] at hread
  · exact hread

theorem WrittenItem.exists_joined_eq_cons (v : WrittenItem) :
    ∃ c s, v.joined = c :: s ∧ isSpace c = false := by
  cases v with
  | scalar value =>
      obtain ⟨c, s, htext, hc⟩ := value.exists_text_eq_cons
      refine ⟨c, s, htext, ?_⟩
      simp only [List.mem_cons, not_or] at hc
      simp [isSpace, hc]
  | nested value =>
      obtain ⟨c, s, htext, hc⟩ := value.exists_joined_eq_cons
      exact ⟨c, s, htext, by rcases hc with rfl | rfl <;> rfl⟩

theorem WrittenItem.readValue?_joined (v : WrittenItem) (hrest : Ends rest) :
    readValue? maxNesting (v.joined ++ rest) = some (v.item, rest) := by
  cases v with
  | scalar value => exact readValue?_writtenScalar maxNesting value hrest
  | nested value =>
      obtain ⟨c, s, htext, hc⟩ := value.exists_joined_eq_cons
      have hread := value.readValue?_joined
      rw [joined, item, htext]
      rw [htext] at hread
      exact readValue?_append hc hread rest

/-! ## Lines -/

/-- What a line says. -/
inductive Row where
  | blank
  | entry (key : WrittenKey) (before after : Spaces) (value : WrittenItem)
  | header (before : Spaces) (name : WrittenKey) (after : Spaces)

namespace Row

def text : Row → List Char
  | blank => []
  | entry key before after value => pairText key before after value.text
  | header before name after => '[' :: (before.val ++ name.text ++ after.val ++ [']'])

/-- The text with single line feeds for all line breaks. -/
def joined : Row → List Char
  | blank => []
  | entry key before after value => pairText key before after value.joined
  | header before name after => (header before name after).text

/-- The line as it is read. -/
def line : Row → Line
  | blank => .blank
  | entry key _ _ value => .entry ⟨[], key.name⟩ value.item
  | header _ name _ => .header ⟨[], name.name⟩

end Row

/-- A line with the spaces around what it says, and perhaps a comment. -/
structure WrittenRow where
  indent : Spaces
  row : Row
  trailing : Spaces
  comment : Option Comment

namespace WrittenRow

variable (w : WrittenRow)

/-- What stands behind that which the line says. -/
def tail : List Char := w.trailing.val ++ (w.comment.map fun c => '#' :: c.val).getD []

def text : List Char := w.indent.val ++ (w.row.text ++ w.tail)

def joined : List Char := w.indent.val ++ (w.row.joined ++ w.tail)

end WrittenRow

/-- A text that begins with a line break or is at its end, and what follows the line. -/
inductive EndsLine : List Char → List Char → Prop
  | lineFeed (rest : List Char) : EndsLine ('\n' :: rest) rest
  | done : EndsLine [] []

theorem EndsLine.head_eq (h : EndsLine t rest) : ∀ c ∈ t.head?, c = '\n' := by
  cases h with
  | lineFeed rest => simp
  | done => simp

theorem EndsLine.readLineEnd?_of_space (h : EndsLine t rest) (hskip : skipSpace s = t) :
    readLineEnd? s = some rest := by
  rw [readLineEnd?, hskip]
  cases h <;> rfl

theorem EndsLine.readLineEnd?_of_comment {comment : List Char} (h : EndsLine t rest)
    (hskip : skipSpace s = '#' :: comment) (hcomment : comment.dropWhile isPlain = t) :
    readLineEnd? s = some rest := by
  simp only [readLineEnd?, hskip, hcomment]
  cases h <;> rfl

theorem WrittenRow.readLineEnd?_tail (w : WrittenRow) (h : EndsLine t rest) :
    readLineEnd? (w.tail ++ t) = some rest := by
  have hbreak : ∀ c ∈ t.head?, isSpace c = false ∧ isPlain c = false := by
    intro c hc
    rw [h.head_eq c hc]
    decide
  rw [tail, List.append_assoc]
  cases w.comment with
  | none =>
      exact h.readLineEnd?_of_space (skipSpace_spaces w.trailing fun c hc => (hbreak c hc).1)
  | some comment =>
      have hskip : skipSpace (w.trailing.val ++ ('#' :: comment.val ++ t)) =
          '#' :: (comment.val ++ t) := skipSpace_spaces w.trailing (by rintro c ⟨⟩; rfl)
      refine h.readLineEnd?_of_comment hskip ?_
      rw [List.dropWhile_append_of_pos comment.property,
        dropWhile_eq_self fun c hc => (hbreak c hc).2]

theorem WrittenRow.ends_tail (w : WrittenRow) (h : EndsLine t rest) : Ends (w.tail ++ t) := by
  rw [tail, List.append_assoc]
  refine forall_head?_append (forall_spaces w.trailing (by decide)) ?_
  cases w.comment with
  | none =>
      intro c hc
      rw [h.head_eq c hc]
      decide
  | some comment =>
      rintro _ ⟨⟩
      decide

theorem readLine?_blank (hend : readLineEnd? s = some rest) :
    readLine? s = some (.blank, rest) := by
  have hcode : readLineEnd? (skipSpace s) = some rest := by
    rw [readLineEnd?, skipSpace, skipSpace, List.dropWhile_idempotent]
    exact hend
  cases hskip : skipSpace s with
  | nil =>
      rw [hskip] at hcode
      simp [readLine?, hskip, hcode]
  | cons c code =>
      have hbracket : c ≠ '[' := by
        rintro rfl
        simp [readLineEnd?, hskip] at hend
      rw [hskip] at hcode
      simp [readLine?, hskip, hbracket, hcode]

/-- An entry begins with a character that no other line begins with. -/
theorem readLine?_entry {code : List Char} {pair : KeyPath × Item}
    (hskip : skipSpace s = c :: code) (hc : c ∉ [' ', '\t', '#', '\n', '['])
    (hpair : readPair? (readValue? maxNesting) (c :: code) = some (pair, t))
    (hend : readLineEnd? t = some rest) : readLine? s = some (.entry pair.1 pair.2, rest) := by
  simp only [List.mem_cons, List.not_mem_nil, or_false, not_or] at hc
  obtain ⟨hspace, htab, hhash, hbreak, hbracket⟩ := hc
  have hcode : readLineEnd? (c :: code) = none := by
    have hstay : skipSpace (c :: code) = c :: code :=
      dropWhile_eq_self (by rintro _ ⟨⟩; simp [isSpace, hspace, htab])
    simp [readLineEnd?, hstay, hhash, hbreak]
  simp [readLine?, hskip, hbracket, hcode, hpair, hend]

theorem readLine?_header {code : List Char} {key : KeyPath}
    (hskip : skipSpace s = '[' :: code) (hcode : ∀ c ∈ code.head?, c ≠ '[')
    (hkey : readKey? code = some (key, ']' :: t)) (hend : readLineEnd? t = some rest) :
    readLine? s = some (.header key, rest) := by
  have hclose : readHeaderEnd? 1 (']' :: t) = some rest := by
    simp [readHeaderEnd?, hend]
  cases code with
  | nil => simp [readLine?, hskip, hkey, hclose]
  | cons d code =>
      have hd : d ≠ '[' := hcode d rfl
      simp [readLine?, hskip, hd, hkey, hclose]

/-- No header begins like that of a repeated table. -/
theorem head_ne_bracket (before : Spaces) (name : WrittenKey) :
    ∀ c ∈ (before.val ++ (name.text ++ s)).head?, c ≠ '[' := by
  refine forall_head?_append (forall_spaces before (by decide)) ?_
  obtain ⟨d, tail, htext, hd⟩ := name.exists_text_eq_cons
  simp only [List.mem_cons, not_or] at hd
  rw [htext]
  rintro _ ⟨⟩
  exact hd.2.2.2.2.1

theorem readPair?_joined (key : WrittenKey) (before after : Spaces) (value : WrittenItem)
    (hrest : Ends rest) :
    readPair? (readValue? maxNesting) (pairText key before after value.joined ++ rest) =
      some ((⟨[], key.name⟩, value.item), rest) := by
  refine readPair?_pairText ⟨[], by simp⟩ key before after (value.readValue?_joined hrest) ?_
  obtain ⟨c, s, hjoined, hc⟩ := value.exists_joined_eq_cons
  rw [hjoined]
  rintro _ ⟨⟩
  exact hc

theorem WrittenRow.readLine?_joined (w : WrittenRow) (h : EndsLine t rest) :
    readLine? (w.joined ++ t) = some (w.row.line, rest) := by
  have htail := w.readLineEnd?_tail h
  rw [joined, List.append_assoc, List.append_assoc]
  cases w.row with
  | blank =>
      refine readLine?_blank ?_
      rw [readLineEnd?, skipSpace, List.dropWhile_append_of_pos w.indent.property]
      exact htail
  | entry key before after value =>
      obtain ⟨c, s, htext, hc⟩ := key.exists_text_eq_cons
      have hpair := readPair?_joined key before after value (w.ends_tail h)
      rw [pairText, htext] at hpair
      rw [Row.joined, pairText, htext]
      have hplain : isSpace c = false := by
        simp only [List.mem_cons, not_or] at hc
        simp [isSpace, hc]
      refine readLine?_entry (skipSpace_spaces w.indent ?_) ?_ hpair htail
      · rintro _ ⟨⟩
        exact hplain
      · simp only [List.mem_cons, not_or] at hc ⊢
        exact ⟨hc.1, hc.2.1, hc.2.2.1, hc.2.2.2.1, hc.2.2.2.2.1, List.not_mem_nil⟩
  | header before name after =>
      have hkey := readKey?_text before name after (c := ']') (by decide) (w.tail ++ t)
      have htext : (Row.header before name after).joined ++ (w.tail ++ t) =
          '[' :: (before.val ++ (name.text ++ (after.val ++ ']' :: (w.tail ++ t)))) := by
        simp [Row.joined, Row.text]
      rw [htext]
      refine readLine?_header (skipSpace_spaces w.indent ?_) ?_ hkey htail
      · rintro _ ⟨⟩
        rfl
      · exact head_ne_bracket before name

/-! ## In the text of a document -/

theorem no_return_spaces (spaces : Spaces) : '\r' ∉ spaces.val := fun hmem =>
  forall_spaces spaces (p := (· ≠ '\r')) (by decide) _ hmem rfl

theorem WrittenItem.joinLineBreaks_text (v : WrittenItem) (t : List Char) :
    joinLineBreaks (v.text ++ t) = v.joined ++ joinLineBreaks t := by
  cases v with
  | scalar value => exact joinLineBreaks_of_no_return value.no_return t
  | nested value =>
      refine joinLineBreaks_append (fun c hc => ?_) t
      obtain ⟨d, hd, hclose⟩ := value.closes
      obtain rfl : c = d := Option.some.inj (hc.symm.trans hd)
      rcases hclose with rfl | rfl <;> decide

theorem Row.joinLineBreaks_text (row : Row) (t : List Char) :
    joinLineBreaks (row.text ++ t) = row.joined ++ joinLineBreaks t := by
  cases row with
  | blank => rfl
  | entry key before after value =>
      have hkey : '\r' ∉ key.text ++ before.val ++ '=' :: after.val := by
        simp [key.no_return, no_return_spaces]
      have htext : ∀ text, pairText key before after text =
          key.text ++ before.val ++ '=' :: after.val ++ text := by
        intro text
        simp [pairText]
      rw [text, joined, htext, htext, List.append_assoc, joinLineBreaks_of_no_return hkey,
        value.joinLineBreaks_text, List.append_assoc _ value.joined]
  | header before name after =>
      refine joinLineBreaks_of_no_return ?_ t
      simp [text, name.no_return, no_return_spaces]

theorem WrittenRow.joinLineBreaks_text (w : WrittenRow) (t : List Char) :
    joinLineBreaks (w.text ++ t) = w.joined ++ joinLineBreaks t := by
  have htail : '\r' ∉ w.tail := by
    rw [tail, List.mem_append, not_or]
    refine ⟨no_return_spaces _, ?_⟩
    cases w.comment with
    | none => exact List.not_mem_nil
    | some comment =>
        have hcomment : '\r' ∉ comment.val := fun hmem => by cases comment.property _ hmem
        simp [hcomment]
  rw [text, joined, List.append_assoc, List.append_assoc, List.append_assoc, List.append_assoc,
    joinLineBreaks_of_no_return (no_return_spaces _), w.row.joinLineBreaks_text,
    joinLineBreaks_of_no_return htail]

/-- No line begins with a byte order mark. -/
theorem WrittenRow.head_ne_mark (w : WrittenRow) (ht : ∀ c ∈ t.head?, c ≠ '\uFEFF') :
    ∀ c ∈ (w.text ++ t).head?, c ≠ '\uFEFF' := by
  rw [text, List.append_assoc, List.append_assoc]
  refine forall_head?_append (forall_spaces w.indent (by decide)) ?_
  cases w.row with
  | blank =>
      rw [Row.text, List.nil_append, tail, List.append_assoc]
      refine forall_head?_append (forall_spaces w.trailing (by decide)) ?_
      cases w.comment with
      | none => exact ht
      | some comment =>
          rintro _ ⟨⟩
          decide
  | entry key before after value =>
      obtain ⟨c, s, htext, hc⟩ := key.exists_text_eq_cons
      simp only [List.mem_cons, not_or] at hc
      rw [Row.text, pairText, htext]
      rintro _ ⟨⟩
      exact hc.2.2.2.2.2.1
  | header before name after =>
      rintro _ ⟨⟩
      decide

end DbRoute.Toml
