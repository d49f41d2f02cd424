import DbRoute.Proofs.Toml.Row

/-!
# Documents as they are written

A document is its lines with a line break between any two of them. It is read back line by
line; and if no two lines give the same name, the lines fill the tables in their order: the
entries before any header are those of the document itself, and each header opens one more
table for the entries up to the next one.
-/

namespace DbRoute.Toml

variable {s t rest : List Char} {line : Line} {fuel : Nat}

/-! ## Filling tables -/

section Filling

variable {entries inner earlier : Entries} {current : List String} {key name : String} {item : Item}

theorem Entries.find?_eq_none (h : key ∉ entries.names) : entries.find? key = none := by
  rw [find?, List.lookup_eq_none_iff]
  intro entry hentry
  exact bne_iff_ne.mpr fun e => h (List.mem_map.mpr ⟨entry, hentry, e.symm⟩)

theorem Entries.find?_append_self (h : key ∉ entries.names) :
    (entries ++ [(key, item)]).find? key = some item := by
  have hnone : List.lookup key entries = none := find?_eq_none h
  rw [find?, List.lookup_append, hnone, Option.none_or]
  exact List.lookup_cons_self

theorem Entries.replace_append_self {new : Item} (h : key ∉ entries.names) :
    (entries ++ [(key, item)]).replace key new = entries ++ [(key, new)] := by
  have hsame : entries.replace key new = entries.map id := by
    refine List.map_congr_left fun entry hentry => if_neg fun e => ?_
    exact h (List.mem_map.mpr ⟨entry, hentry, e⟩)
  rw [replace, List.map_append, ← replace, hsame, List.map_id, List.map_singleton, if_pos rfl]

namespace Filling

/-- An entry before any header. -/
theorem step?_entry_first (h : key ∉ entries.names) :
    step? ⟨entries, []⟩ (.entry ⟨[], key⟩ item) = some ⟨entries ++ [(key, item)], []⟩ := by
  simp [step?, Entries.within?, Entries.add?, Entries.has_eq_false h, Entries.append]

/-- An entry after a header. -/
theorem step?_entry_section (hname : name ∉ earlier.names) (hkey : key ∉ inner.names) :
    step? ⟨earlier ++ [(name, .table .header inner)], [name]⟩ (.entry ⟨[], key⟩ item) =
      some ⟨earlier ++ [(name, .table .header (inner ++ [(key, item)]))], [name]⟩ := by
  simp [step?, Entries.within?, Entries.find?_append_self hname, Entries.add?,
    Entries.has_eq_false hkey, Entries.append, Entries.replace_append_self hname]

theorem step?_header (h : name ∉ entries.names) :
    step? ⟨entries, current⟩ (.header ⟨[], name⟩) =
      some ⟨entries ++ [(name, .table .header [])], [name]⟩ := by
  simp [step?, Entries.within?, Entries.openTable?, Entries.find?_eq_none h, Entries.append,
    KeyPath.parts]

end Filling

/-! ### Line by line -/

/-- The name that a line gives to a value or to a table. -/
def Row.name? : Row → Option String
  | .blank => none
  | .entry key _ _ _ => some key.name
  | .header _ name _ => some name.name

/-- The entries up to the next header. -/
def ownEntries : List Row → Entries
  | [] => []
  | .blank :: rows => ownEntries rows
  | .entry key _ _ value :: rows => (key.name, value.item) :: ownEntries rows
  | .header _ _ _ :: _ => []

/-- The tables that headers open, each with the entries up to the next one. -/
def sections : List Row → Entries
  | [] => []
  | .header _ name _ :: rows => (name.name, .table .header (ownEntries rows)) :: sections rows
  | _ :: rows => sections rows

/-- What the lines say together. -/
def entriesOf (rows : List Row) : Entries := ownEntries rows ++ sections rows

/-- With a table open, the entries go there until a header opens the next one. The open
table is the last of all, and no name in it or before it is to come again. -/
theorem fill_section (rows : List Row)
    (h : (earlier.names ++ name :: (inner.names ++ rows.filterMap Row.name?)).Nodup) :
    ∃ current, (rows.map Row.line).foldlM Filling.step?
        ⟨earlier ++ [(name, .table .header inner)], [name]⟩ =
      some ⟨earlier ++ (name, .table .header (inner ++ ownEntries rows)) :: sections rows,
        current⟩ := by
  induction rows generalizing earlier name inner with
  | nil => exact ⟨[name], by simp [ownEntries, sections]⟩
  | cons row rows ih =>
      cases row with
      | blank => exact ih h
      | entry key before after value =>
          have hkey : key.name ∉ inner.names := not_mem_of_nodup h.of_append_right.of_cons
          have hnext : (earlier.names ++ name ::
              (Entries.names (inner ++ [(key.name, value.item)]) ++
                rows.filterMap Row.name?)).Nodup := by
            rw [Entries.names_append_singleton, List.append_assoc]
            exact h
          obtain ⟨current, hfill⟩ := ih hnext
          refine ⟨current, ?_⟩
          rw [List.map_cons, List.foldlM_cons, Row.line,
            Filling.step?_entry_section (not_mem_of_nodup h) hkey]
          rw [List.append_assoc] at hfill
          exact hfill
      | header before other after =>
          -- The table that was open is one of the earlier ones now, and what is in it takes no
          -- part in what is still to come.
          have hnext : (Entries.names (earlier ++ [(name, .table .header inner)]) ++
              other.name :: (Entries.names [] ++ rows.filterMap Row.name?)).Nodup := by
            rw [Entries.names_append_singleton, List.append_assoc]
            refine h.sublist (List.Sublist.append_left ?_ _)
            exact (List.sublist_append_right _ _).cons_cons _
          obtain ⟨current, hfill⟩ := ih hnext
          refine ⟨current, ?_⟩
          rw [List.map_cons, List.foldlM_cons, Row.line,
            Filling.step?_header (not_mem_of_nodup hnext)]
          rw [List.append_assoc _ _ (_ :: sections rows)] at hfill
          rw [ownEntries, List.append_nil]
          exact hfill

/-- Before any header the entries go to the document itself. -/
theorem fill_rows (rows : List Row) (h : (entries.names ++ rows.filterMap Row.name?).Nodup) :
    ∃ current, (rows.map Row.line).foldlM Filling.step? ⟨entries, []⟩ =
      some ⟨entries ++ entriesOf rows, current⟩ := by
  induction rows generalizing entries with
  | nil => exact ⟨[], by simp [entriesOf, ownEntries, sections]⟩
  | cons row rows ih =>
      cases row with
      | blank => exact ih h
      | entry key before after value =>
          have hnext : (Entries.names (entries ++ [(key.name, value.item)]) ++
              rows.filterMap Row.name?).Nodup := by
            rw [Entries.names_append_singleton, List.append_assoc]
            exact h
          obtain ⟨current, hfill⟩ := ih hnext
          refine ⟨current, ?_⟩
          rw [List.map_cons, List.foldlM_cons, Row.line,
            Filling.step?_entry_first (not_mem_of_nodup h)]
          rw [List.append_assoc] at hfill
          exact hfill
      | header before name after =>
          have hnext : (entries.names ++
              name.name :: (Entries.names [] ++ rows.filterMap Row.name?)).Nodup := h
          obtain ⟨current, hfill⟩ := fill_section rows hnext
          refine ⟨current, ?_⟩
          rw [List.map_cons, List.foldlM_cons, Row.line,
            Filling.step?_header (not_mem_of_nodup h)]
          exact hfill

end Filling

/-! ## Texts -/

inductive Break where
  | lineFeed
  | returnAndLineFeed

def Break.text : Break → List Char
  | lineFeed => ['\n']
  | returnAndLineFeed => ['\r', '\n']

/-- Lines with the breaks between them. A break at the end has an empty last line behind it. -/
structure WrittenDocument where
  lines : List (WrittenRow × Break)
  last : WrittenRow

namespace WrittenDocument

variable (d : WrittenDocument)

def text : List Char :=
  d.lines.flatMap (fun line => line.1.text ++ line.2.text) ++ d.last.text

def rows : List Row := d.lines.map (·.1.row) ++ [d.last.row]

end WrittenDocument

theorem joinLineBreaks_break (b : Break) (t : List Char) :
    joinLineBreaks (b.text ++ t) = '\n' :: joinLineBreaks t := by
  cases b <;> rfl

theorem dropByteOrderMark_eq_self (h : ∀ c ∈ s.head?, c ≠ '\uFEFF') : dropByteOrderMark s = s := by
  cases s with
  | nil => rfl
  | cons c s =>
      refine if_neg fun hc => h c rfl ?_
      rw [← Char.ofNat_toNat c, hc]

theorem readLines?_nil : readLines? fuel [] = some [] := by
  rw [readLines?]

theorem readLines?_of_readLine? (hne : s ≠ []) (h : readLine? s = some (line, rest)) :
    readLines? (fuel + 1) s = (readLines? fuel rest).map (line :: ·) := by
  obtain ⟨c, s, rfl⟩ := List.exists_cons_of_ne_nil hne
  cases hlines : readLines? fuel rest <;> simp [readLines?, h, hlines]

/-- The same lines with single line feeds between them. -/
def joined (lines : List WrittenRow) (last : WrittenRow) : List Char :=
  lines.flatMap (fun line => line.joined ++ ['\n']) ++ last.joined

theorem WrittenRow.row_eq_blank (w : WrittenRow) (h : w.joined = []) : w.row = .blank := by
  rw [joined, List.append_eq_nil_iff, List.append_eq_nil_iff] at h
  cases hrow : w.row with
  | blank => rfl
  | entry key before after value => simp [hrow, Row.joined, pairText] at h
  | header before name after => simp [hrow, Row.joined, Row.text] at h

/-- The lines that are read say what the rows say; only an empty last row is not read. -/
theorem exists_readLines? (lines : List WrittenRow) (last : WrittenRow)
    (hfuel : (joined lines last).length ≤ fuel) :
    ∃ read, readLines? fuel (joined lines last) = some read ∧ ∀ f : Filling,
      read.foldlM Filling.step? f =
        ((lines.map (·.row) ++ [last.row]).map Row.line).foldlM Filling.step? f := by
  induction lines generalizing fuel with
  | nil =>
      cases htext : last.joined with
      | nil =>
          have hjoined : joined [] last = [] := htext
          refine ⟨[], by rw [hjoined, readLines?_nil], fun f => ?_⟩
          rw [List.map_nil, List.nil_append, last.row_eq_blank htext]
          rfl
      | cons c s =>
          have hjoined : joined [] last = last.joined := rfl
          have hne : last.joined ≠ [] := by simp [htext]
          have hline := last.readLine?_joined EndsLine.done
          rw [List.append_nil] at hline
          obtain ⟨n, rfl⟩ : ∃ n, fuel = n + 1 :=
            Nat.exists_eq_add_one.mpr ((List.length_pos_iff.mpr hne).trans_le hfuel)
          refine ⟨[last.row.line], ?_, fun f => rfl⟩
          rw [hjoined, readLines?_of_readLine? hne hline, readLines?_nil]
          rfl
  | cons w lines ih =>
      have hjoined : joined (w :: lines) last = w.joined ++ '\n' :: joined lines last := by
        simp [joined]
      have hline := w.readLine?_joined (.lineFeed (joined lines last))
      rw [hjoined] at hfuel ⊢
      obtain ⟨n, rfl⟩ : ∃ n, fuel = n + 1 := Nat.exists_eq_add_one.mpr (by simp at hfuel; omega)
      have hless : (joined lines last).length ≤ n := by
        simp only [List.length_append, List.length_cons] at hfuel
        omega
      obtain ⟨read, hread, hfold⟩ := ih hless
      refine ⟨w.row.line :: read, ?_, fun f => ?_⟩
      · rw [readLines?_of_readLine? (by simp) hline, hread]
        rfl
      · rw [List.foldlM_cons, List.map_cons, List.cons_append, List.map_cons, List.foldlM_cons]
        exact congrArg _ (funext hfold)

namespace WrittenDocument

variable (d : WrittenDocument)

theorem joinLineBreaks_text : joinLineBreaks d.text = joined (d.lines.map Prod.fst) d.last := by
  have hlines : ∀ lines : List (WrittenRow × Break), ∀ t,
      joinLineBreaks (lines.flatMap (fun line => line.1.text ++ line.2.text) ++ t) =
        (lines.map Prod.fst).flatMap (fun line => line.joined ++ ['\n']) ++ joinLineBreaks t := by
    intro lines t
    induction lines with
    | nil => rfl
    | cons line lines ih =>
        rw [List.flatMap_cons, List.append_assoc, List.append_assoc,
          line.1.joinLineBreaks_text, joinLineBreaks_break, ih]
        simp
  have hlast : joinLineBreaks d.last.text = d.last.joined := by
    have h := d.last.joinLineBreaks_text []
    rwa [joinLineBreaks, List.append_nil, List.append_nil] at h
  rw [text, hlines, hlast, joined]

theorem dropByteOrderMark_text : dropByteOrderMark d.text = d.text := by
  have hlast : ∀ c ∈ d.last.text.head?, c ≠ '\uFEFF' := by
    rw [← List.append_nil d.last.text]
    exact d.last.head_ne_mark (by simp)
  refine dropByteOrderMark_eq_self ?_
  rw [text]
  cases d.lines with
  | nil => exact hlast
  | cons line lines =>
      rw [List.flatMap_cons, List.append_assoc, List.append_assoc]
      refine line.1.head_ne_mark ?_
      cases line.2 <;> rintro _ ⟨⟩ <;> decide

/-- A document whose lines give no name twice says what its lines say. -/
theorem readDocument?_text (h : (d.rows.filterMap Row.name?).Nodup) :
    readDocument? d.text = entryContents? (entriesOf d.rows) := by
  have hnames : (Entries.names [] ++ d.rows.filterMap Row.name?).Nodup := h
  obtain ⟨current, hfill⟩ := fill_rows d.rows hnames
  obtain ⟨read, hread, hfold⟩ := exists_readLines? (d.lines.map Prod.fst) d.last le_rfl
  have hrows : (d.lines.map Prod.fst).map (·.row) ++ [d.last.row] = d.rows := by
    rw [List.map_map]
    rfl
  rw [hrows] at hfold
  rw [List.nil_append] at hfill
  rw [readDocument?, d.dropByteOrderMark_text, d.joinLineBreaks_text]
  simp only [hread, Option.bind_eq_bind, Option.bind_some]
  rw [hfold, hfill]
  rfl

end WrittenDocument

end DbRoute.Toml
