import DbRoute.Configuration
import DbRoute.Proofs.Layers
import DbRoute.Proofs.Outcome
import DbRoute.Proofs.Toml.Content
import DbRoute.Proofs.Toml.Document

/-!
# Flat configuration files

A file of scalars under distinct keys is loaded with exactly those keys, in the order of its
lines, each with the text of its scalar. With arrays, tables in braces or headers among its
lines there is nothing to load, and the first of their names is complained about.

What these files are is TOML 1.0, and the reader has to agree with it. Its agreement ends in
two places. Arrays and tables in braces nest 79 deep and no deeper (`readValue?_too_deep`), so
that is how deep they are written here. And a table that has the reserved key first is a date
or time to the reader, be it spelled well or not, so there is no such table in the files that
are refused here.
-/

namespace DbRoute

open Outcome

namespace Toml

variable {rows : List Row} {name : String}

/-- The text of the scalar as a property value. -/
def WrittenScalar.value : WrittenScalar → String
  | string w => w.value
  | integer value _ _ => toString value
  | boolean true => "true"
  | boolean false => "false"

/-- The property that a line gives. -/
def Row.property? : Row → Option Pair
  | .entry key _ _ (.scalar v) => some (key.name, v.value)
  | _ => none

/-- The name of an array or a table that a line puts into the file. -/
def Row.inserted? : Row → Option String
  | .entry key _ _ (.nested _) => some key.name
  | .header _ name _ => some name.name
  | _ => none

theorem WrittenScalar.text_scalar (v : WrittenScalar) : v.scalar.text = v.value := by
  cases v with
  | string w => rfl
  | integer value low high => rfl
  | boolean value => cases value <;> rfl

theorem isScalar_readInline? {value? : List Char → Option (Item × List Char)} {item : Item}
    {s rest : List Char} (h : readInline? value? s = some (item, rest)) :
    item.isScalar = false := by
  unfold readInline? at h
  split at h
  all_goals
    obtain ⟨pairs, _, hentries⟩ := Option.bind_eq_some_iff.mp h
    obtain ⟨entries, _, hitem⟩ := Option.bind_eq_some_iff.mp hentries
    rw [← (Prod.mk.inj (Option.some.inj hitem)).1]
    rfl

theorem WrittenNested.isScalar_item (v : WrittenNested) : v.item.isScalar = false := by
  obtain ⟨c, s, htext, hc⟩ := v.exists_joined_eq_cons
  have hread := v.readValue?_joined
  rw [htext] at hread
  rcases hc with rfl | rfl
  · obtain ⟨items, _, hitem⟩ := Option.map_eq_some_iff.mp hread
    rw [← (Prod.mk.inj hitem).1]
    rfl
  · exact isScalar_readInline? hread

/-- Without arrays, tables and headers, all that the lines say is properties. -/
theorem mapM_property?_of_flat (h : rows.findSome? Row.inserted? = none) :
    ∃ contents, entryContents? (entriesOf rows) = some contents ∧
      contents.mapM property? = .ok (rows.filterMap Row.property?) := by
  induction rows with
  | nil => exact ⟨[], rfl, rfl⟩
  | cons row rows ih =>
      rw [List.findSome?_eq_none_iff, List.forall_mem_cons, ← List.findSome?_eq_none_iff] at h
      obtain ⟨hrow, hrows⟩ := h
      obtain ⟨contents, hcontents, hproperties⟩ := ih hrows
      cases row with
      | blank => exact ⟨contents, hcontents, hproperties⟩
      | entry key before after value =>
          cases value with
          | scalar v =>
              have hentries : entriesOf (.entry key before after (.scalar v) :: rows) =
                  (key.name, .scalar v.scalar) :: entriesOf rows := rfl
              have hproperty :
                  property? (key.name, .scalar v.scalar) = .ok (key.name, v.value) := by
                simp [property?, v.text_scalar]
              refine ⟨(key.name, .scalar v.scalar) :: contents, ?_, ?_⟩
              · simp [hentries, entryContents?, Item.content?, hcontents]
              · rw [List.mapM_cons, hproperty, hproperties]
                rfl
          | nested v => cases hrow
      | header before other after => cases hrow

/-- The first array or table that the lines put into the file is the first of its entries
that is no scalar. -/
theorem first_entriesOf (h : rows.findSome? Row.inserted? = some name) :
    ∃ item, First (fun entry => entry.2.isScalar = false) (entriesOf rows) (name, item) := by
  induction rows with
  | nil => cases h
  | cons row rows ih =>
      cases row with
      | blank => exact ih h
      | entry key before after value =>
          cases value with
          | scalar v =>
              obtain ⟨item, hfirst⟩ := ih h
              exact ⟨item, .later (fun hscalar => by cases hscalar) hfirst⟩
          | nested v =>
              obtain rfl := Option.some.inj h
              exact ⟨v.item, .here v.isScalar_item⟩
      | header before other after =>
          -- No entry of the document itself stands behind a header: its table is the next one.
          obtain rfl := Option.some.inj h
          exact ⟨_, .here rfl⟩

theorem keys_property?_sublist (rows : List Row) :
    (Pairs.keys (rows.filterMap Row.property?)).Sublist (rows.filterMap Row.name?) := by
  induction rows with
  | nil => exact .slnil
  | cons row rows ih =>
      cases row with
      | blank => exact ih
      | entry key before after value =>
          cases value with
          | scalar v => exact ih.cons_cons _
          | nested v => exact ih.cons _
      | header before other after => exact ih.cons _

/-- No table of the document has the reserved key first, but for the document itself. TOML 1.0
reserves no key: at such a table the reader's agreement with it ends. -/
def WrittenDocument.Unreserved (d : WrittenDocument) : Prop :=
  ∀ entry ∈ entriesOf d.rows, entry.2.Unreserved

end Toml

open Toml

theorem property?_eq_error {entry : String × Content} {defect : String} :
    property? entry = .error defect ↔
      entry.2.isScalar = false ∧ defect = scalarDefect entry.1 := by
  obtain ⟨key, content⟩ := entry
  cases content <;> simp [property?, Content.isScalar, eq_comm]

theorem property?_fails {entry : String × Content} :
    (∃ defect, property? entry = .error defect) ↔ entry.2.isScalar = false := by
  simp [property?_eq_error]

/-- Files of scalars are loaded line by line, and the first line that gives an array or a
table is what any other file is refused for. It is assumed that the reader agrees with
TOML 1.0 on the file, which it does as deep as written values nest and while no table has
the reserved key first. -/
theorem loadText_flatFile (name : String) (d : WrittenDocument)
    (hnames : (d.rows.filterMap Row.name?).Nodup) :
    (d.rows.findSome? Row.inserted? = none →
      ∃ p, loadText name (String.ofList d.text) = .ok p ∧
        p.pairs = d.rows.filterMap Row.property?) ∧
    (∀ first, d.rows.findSome? Row.inserted? = some first → d.Unreserved →
      ∃ defect, loadText name (String.ofList d.text) = .error (.malformed name defect) ∧
        (LoadError.malformed name defect).text =
          s!"Configuration '{name}' is malformed: " ++
            s!"value of '{first}' must be a scalar") := by
  have hdocument := d.readDocument?_text hnames
  constructor
  · intro hflat
    obtain ⟨contents, hcontents, hproperties⟩ := mapM_property?_of_flat hflat
    have hkeys : (Pairs.keys (d.rows.filterMap Row.property?)).Nodup :=
      hnames.sublist (keys_property?_sublist d.rows)
    refine ⟨_, ?_, Properties.pairs_ofList_of_nodup hkeys⟩
    rw [loadText, readConfiguration, String.toList_ofList, hdocument, hcontents]
    dsimp only
    rw [hproperties]
    rfl
  · intro first hfirst hunreserved
    -- Contents are scalars where items are, so the first of them to be refused has this name.
    obtain ⟨item, hitem⟩ := first_entriesOf hfirst
    obtain ⟨contents, hcontents, hall⟩ := exists_entryContents?
      (P := fun item content => content.isScalar = item.isScalar)
      fun entry hentry => (hunreserved entry hentry).exists_content?
    obtain ⟨⟨key, content⟩, hcontent, hkey, _⟩ := hitem.forall₂ hall
      (Q := fun content => ∃ defect, property? content = .error defect)
      fun entry content h => by rw [property?_fails, h.2]
    obtain rfl : key = first := hkey
    have hdefect : property? (key, content) = .error (scalarDefect key) :=
      property?_eq_error.mpr ⟨property?_fails.mp hcontent.holds.2, rfl⟩
    have hrefused := mapM_eq_error.mpr ⟨(key, content), hcontent, hdefect⟩
    refine ⟨scalarDefect key, ?_, rfl⟩
    rw [loadText, readConfiguration, String.toList_ofList, hdocument, hcontents]
    dsimp only
    rw [hrefused]
    rfl

/-- Where the agreement has ended: a table with the reserved key first is a time in disguise. -/
example : loadText "t" "k = \x7b\"$__toml_private_datetime\" = \"07:32:00\"\x7d\n" =
    .ok (Properties.ofList [("k", "07:32:00")]) := by decide +kernel

/-! ## Two files -/

def noSpaces : Spaces := ⟨[], by decide⟩

def oneSpace : Spaces := ⟨[' '], by decide⟩

def plainRow (row : Row) : WrittenRow := ⟨noSpaces, row, noSpaces, none⟩

def plainEntry (key : String) (value : WrittenItem) : WrittenRow :=
  plainRow (.entry (.basic (.ofValue key)) oneSpace oneSpace value)

/-- Each kind of scalar, after a comment. -/
def scalarsFile : WrittenDocument where
  lines :=
    [(⟨oneSpace, .blank, noSpaces, some ⟨"sizes".toList, by decide⟩⟩, .lineFeed),
      (plainEntry "a\"b" (.scalar (.string (.ofValue "x\\\n"))), .returnAndLineFeed),
      (plainEntry "least" (.scalar (.integer (-0x8000000000000000) (by decide) (by decide))),
        .lineFeed)]
  last := plainEntry "on" (.scalar (.boolean true))

/-- The items of the array, on two lines. -/
theorem isItems_list : IsItems (IsValue 78) "1, # one\n\x7bdeep = []\x7d".toList
    [.scalar (.integer 1), .table .inline [("deep", .array [])]] := by
  have hscalar : IsValue 78 "1".toList (.scalar (.integer 1)) :=
    .inl ⟨.integer 1 (by decide) (by decide), rfl, rfl⟩
  have harray : IsValue 77 "[]".toList (.array []) := .inr (.array (.none .nil))
  have hpair : IsPair (IsValue 77) "deep = []".toList ("deep", .array []) :=
    .mk noSpaces (.bare "deep" (by decide) (by decide)) oneSpace oneSpace harray
  have htable : IsValue 78 "\x7bdeep = []\x7d".toList (.table .inline [("deep", .array [])]) :=
    .inr (.table (.last noSpaces hpair) (by decide))
  have hgap : IsGap " # one\n".toList :=
    .space rfl (.comment ⟨" one".toList, by decide⟩ .nil)
  exact .more .nil hscalar .nil (.last hgap htable .nil)

def listValue : WrittenNested where
  text := "[1, # one\r\n\x7bdeep = []\x7d]".toList
  item := .array [.scalar (.integer 1), .table .inline [("deep", .array [])]]
  opens := ⟨'[', rfl, .inl rfl⟩
  closes := ⟨']', rfl, .inl rfl⟩
  valid := .inl (.inr (.array isItems_list))

/-- An array with a table in it, and a header after it. -/
def nestedFile : WrittenDocument where
  lines :=
    [(plainEntry "on" (.scalar (.boolean false)), .lineFeed),
      (plainEntry "list" (.nested listValue), .lineFeed),
      (plainRow (.header noSpaces (.basic (.ofValue "more")) noSpaces), .lineFeed)]
  last := plainEntry "size" (.scalar (.integer 6 (by decide) (by decide)))

theorem unreserved_nestedFile : nestedFile.Unreserved := by
  have hentries : entriesOf nestedFile.rows =
      [("on", .scalar (.boolean false)),
        ("list", .array [.scalar (.integer 1), .table .inline [("deep", .array [])]]),
        ("more", .table .header [("size", .scalar (.integer 6))])] := rfl
  have htable : ∀ {origin : Origin} {key : String} {item : Item}, key ≠ dateTimeKey →
      item.Unreserved → (Item.table origin [(key, item)]).Unreserved := by
    intro origin key item hkey hitem
    exact .table (by rintro _ ⟨⟩; exact hkey) (List.forall_mem_singleton.mpr hitem)
  have hempty : (Item.array []).Unreserved := .array fun _ h => absurd h List.not_mem_nil
  rw [WrittenDocument.Unreserved, hentries, List.forall_mem_cons, List.forall_mem_cons,
    List.forall_mem_singleton]
  refine ⟨.scalar _, .array ?_, htable (by decide) (.scalar _)⟩
  rw [List.forall_mem_cons, List.forall_mem_singleton]
  exact ⟨.scalar _, htable (by decide) hempty⟩

theorem loadText_flatFile_samples :
    String.ofList scalarsFile.text = " #sizes\n\"a\\\"b\" = \"x\\\\\\u000a\"\r\n" ++
        "\"least\" = -9223372036854775808\n\"on\" = true" ∧
      (∃ p, loadText "t" (String.ofList scalarsFile.text) = .ok p ∧
        p.pairs = [("a\"b", "x\\\n"), ("least", "-9223372036854775808"), ("on", "true")]) ∧
      ∃ defect, loadText "t" (String.ofList nestedFile.text) = .error (.malformed "t" defect) ∧
        (LoadError.malformed "t" defect).text =
          "Configuration 't' is malformed: value of 'list' must be a scalar" := by
  have hscalars := (loadText_flatFile "t" scalarsFile (by decide)).1 rfl
  have hnested := (loadText_flatFile "t" nestedFile (by decide)).2 "list" rfl
    unreserved_nestedFile
  refine ⟨rfl, ?_, ?_⟩
  · obtain ⟨p, hp, hpairs⟩ := hscalars
    exact ⟨p, hp, hpairs.trans rfl⟩
  · obtain ⟨defect, hdefect, htext⟩ := hnested
    exact ⟨defect, hdefect, htext.trans rfl⟩

end DbRoute
