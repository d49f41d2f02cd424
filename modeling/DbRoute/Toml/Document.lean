import DbRoute.Toml.Value

/-!
# Documents

A TOML document is read in three steps: its lines are read one by one, the
tables that they speak of are filled, and what the tables hold is read off.
-/

namespace DbRoute.Toml

/-! ## Content

What a finished document says, whatever way its tables were written: scalars,
arrays and tables. A table whose first key is the reserved one is a date or
time in another notation, spelled by the string under that key; what follows
in it counts for nothing. A table that has this key first and spells no date
or time leaves the whole document without content.

The document itself is not such a table: among its own entries the reserved
key is a key like any other.
-/

inductive Content where
  | scalar (value : Scalar)
  | array (items : List Content)
  | table (entries : List (String × Content))

/-- The key under which a table spells a date or time. -/
def dateTimeKey : String := "$__toml_private_datetime"

/-- The date or time that an item spells under the reserved key. -/
def Item.dateTime? : Item → Option DateTime
  | .scalar (.string text) => DateTime.ofText? text.toList
  | _ => none

mutual

def Item.content? : Item → Option Content
  | .scalar value => some (.scalar value)
  | .array items => (contents? items).map .array
  | .table _ entries => tableContent? entries
  | .tables earlier last => do
      let tables ← tableContents? earlier
      let final ← tableContent? last
      return .array (tables ++ [final])

def contents? : List Item → Option (List Content)
  | [] => some []
  | item :: items => do
      let first ← item.content?
      let rest ← contents? items
      return first :: rest

/-- What one table says: a date or time under the reserved key, or its entries. -/
def tableContent? : Entries → Option Content
  | [] => some (.table [])
  | (key, item) :: entries =>
      if key = dateTimeKey then item.dateTime?.map fun value => .scalar (.dateTime value)
      else do
        let first ← item.content?
        let rest ← entryContents? entries
        return .table ((key, first) :: rest)

/-- What entries say one by one, whatever their keys. -/
def entryContents? : Entries → Option (List (String × Content))
  | [] => some []
  | (key, item) :: entries => do
      let first ← item.content?
      let rest ← entryContents? entries
      return (key, first) :: rest

def tableContents? : List Entries → Option (List Content)
  | [] => some []
  | entries :: tables => do
      let first ← tableContent? entries
      let rest ← tableContents? tables
      return first :: rest

end

/-! ## Lines

A document is a list of lines: blank ones, entries, and the headers of tables
and of repeated tables, each with a comment behind it if there is one. What it
says is found by filling its tables line by line, and then reading off the
content of the tables.

A line ends in a line feed, alone or after a carriage return; a carriage
return elsewhere is a control character. A byte order mark at the start counts
for nothing.
-/

inductive Line where
  | blank
  | entry (key : KeyPath) (item : Item)
  | header (key : KeyPath)
  | element (key : KeyPath)

/-- Single line feeds for all line breaks. -/
def joinLineBreaks : List Char → List Char
  | [] => []
  | '\r' :: '\n' :: s => '\n' :: joinLineBreaks s
  | c :: s => c :: joinLineBreaks s

def dropByteOrderMark : List Char → List Char
  | c :: s => if c.toNat = 0xFEFF then s else c :: s
  | [] => []

/-- Spaces, a comment, and the end of the line or of the text. -/
def readLineEnd? (s : List Char) : Option (List Char) :=
  let rest :=
    match skipSpace s with
    | '#' :: comment => comment.dropWhile isPlain
    | code => code
  match rest with
  | [] => some []
  | c :: next => if c = '\n' then some next else none

/-- The end of a header: closing brackets and the end of the line. -/
def readHeaderEnd? (brackets : Nat) (s : List Char) : Option (List Char) :=
  if s.take brackets = List.replicate brackets ']' then readLineEnd? (s.drop brackets) else none

/-- One line, and the text after it. -/
def readLine? (s : List Char) : Option (Line × List Char) :=
  match skipSpace s with
  | '[' :: '[' :: s => do
      let (key, s) ← readKey? s
      return (.element key, ← readHeaderEnd? 2 s)
  | '[' :: s => do
      let (key, s) ← readKey? s
      return (.header key, ← readHeaderEnd? 1 s)
  | code =>
      match readLineEnd? code with
      | some rest => some (.blank, rest)
      | none => do
          let (pair, s) ← readPair? (readValue? maxNesting) code
          return (.entry pair.1 pair.2, ← readLineEnd? s)

/-- The lines of a text. A line takes a character at the least, so `fuel` may
be the length of the text. -/
def readLines? : Nat → List Char → Option (List Line)
  | _, [] => some []
  | 0, _ :: _ => none
  | fuel + 1, c :: s => do
      let (line, rest) ← readLine? (c :: s)
      let lines ← readLines? fuel rest
      return line :: lines

/-- The tables read so far, and the path of the one that entries go to. -/
structure Filling where
  entries : Entries := []
  current : List String := []

namespace Filling

def step? (f : Filling) : Line → Option Filling
  | .blank => some f
  | .entry key item =>
      (f.entries.within? (Entries.add? key.last item key.tables) f.current).map
        fun entries => { f with entries }
  | .header key =>
      (f.entries.within? (Entries.openTable? key.last) key.tables).map
        fun entries => ⟨entries, key.parts⟩
  | .element key =>
      (f.entries.within? (Entries.openElement? key.last) key.tables).map
        fun entries => ⟨entries, key.parts⟩

end Filling

/-- The entries of a whole document, in order; none if it is no TOML. -/
def readDocument? (text : List Char) : Option (List (String × Content)) := do
  let s := joinLineBreaks (dropByteOrderMark text)
  let lines ← readLines? s.length s
  let filling ← lines.foldlM Filling.step? {}
  entryContents? filling.entries

end DbRoute.Toml
