import DbRoute.Toml.DateTime
import DbRoute.Toml.Numeral
import DbRoute.Toml.Quoted

/-!
# Items

What the keys of a TOML document stand for: scalars, arrays of items, and the
tables that its lines fill.
-/

namespace DbRoute.Toml

/-! ## Scalars

The TOML values that have no parts, and the text of each as a property value:
a string itself, a number in plain decimals, a word for a truth value, a date
or time in the standard notation.
-/

inductive Scalar where
  | string (text : String)
  | integer (value : Int)
  | float (value : Binary64)
  | boolean (value : Bool)
  | dateTime (value : DateTime)

namespace Scalar

def text : Scalar → String
  | string s => s
  | integer i => toString i
  | float x => x.text
  | boolean b => if b then "true" else "false"
  | dateTime d => String.ofList d.text

end Scalar

/-- A date or time wins over a number that starts with the same digits, and a float over an
integer. -/
def readNumberLike? (s : List Char) : Option (Scalar × List Char) :=
  (readDateTime? s).map (fun r => (.dateTime r.1, r.2)) <|>
    (readFloat? s).map (fun r => (.float r.1, r.2)) <|>
    (readInteger? s).map fun r => (.integer r.1, r.2)

def readWord? : List Char → Option (Scalar × List Char)
  | 't' :: 'r' :: 'u' :: 'e' :: s => some (.boolean true, s)
  | 'f' :: 'a' :: 'l' :: 's' :: 'e' :: s => some (.boolean false, s)
  | _ => none

def readScalar? (s : List Char) : Option (Scalar × List Char) :=
  (readQuoted? s).map (fun r => (.string (String.ofList r.1), r.2)) <|>
    readWord? s <|> readNumberLike? s

/-! ## Tables

The tables of a TOML document, filled entry by entry. A table remembers how it
came to be, because that decides what may still be added to it: a header opens
a table once, also one that a longer header named before; a dotted key adds to
tables that dotted keys made; a table in braces is complete. Entries stay in
the order in which they were added, but a table that its own header opens
after a longer one goes to the end.
-/

/-- How a table came to be. -/
inductive Origin where
  /-- Its own header. -/
  | header
  /-- The header of a table inside it. -/
  | implied
  /-- A dotted key. -/
  | dotted
  /-- Braces. -/
  | inline
  deriving DecidableEq

inductive Item where
  | scalar (value : Scalar)
  | array (items : List Item)
  | table (origin : Origin) (entries : List (String × Item))
  /-- Tables under one repeated header; the last one is still open. -/
  | tables (earlier : List (List (String × Item))) (last : List (String × Item))

abbrev Entries := List (String × Item)

namespace Entries

def has (key : String) (entries : Entries) : Bool :=
  entries.any (·.1 == key)

def find? (key : String) (entries : Entries) : Option Item :=
  entries.lookup key

def replace (key : String) (item : Item) (entries : Entries) : Entries :=
  entries.map fun entry => if entry.1 = key then (key, item) else entry

def erase (key : String) (entries : Entries) : Entries :=
  entries.filter (·.1 != key)

def append (key : String) (item : Item) (entries : Entries) : Entries :=
  entries ++ [(key, item)]

/-- Adds an item under a key inside the tables of a dotted path, making those
that are missing. The last table of the path has to be one that dotted keys made. -/
def add? (key : String) (item : Item) : List String → Entries → Option Entries
  | [], entries => if entries.has key then none else some (entries.append key item)
  | name :: path, entries =>
      match entries.find? name with
      | none => (add? key item path []).map fun inner => entries.append name (.table .dotted inner)
      | some (.table .dotted inner) =>
          (add? key item path inner).map fun inner => entries.replace name (.table .dotted inner)
      | some (.table .implied inner) =>
          if path.isEmpty then none
          else
            (add? key item path inner).map fun inner =>
              entries.replace name (.table .implied inner)
      | some (.tables earlier last) =>
          if path.isEmpty then none
          else (add? key item path last).map fun last => entries.replace name (.tables earlier last)
      | some _ => none

/-- Changes the entries of the table that a header path names, making the
tables on the way that are missing. -/
def within? (change : Entries → Option Entries) : List String → Entries → Option Entries
  | [], entries => change entries
  | name :: path, entries =>
      match entries.find? name with
      | none =>
          (within? change path []).map fun inner => entries.append name (.table .implied inner)
      | some (.table .inline _) => none
      | some (.table origin inner) =>
          (within? change path inner).map fun inner => entries.replace name (.table origin inner)
      | some (.tables earlier last) =>
          (within? change path last).map fun last => entries.replace name (.tables earlier last)
      | some _ => none

/-- Opens the table of a header. -/
def openTable? (key : String) (entries : Entries) : Option Entries :=
  match entries.find? key with
  | none => some (entries.append key (.table .header []))
  | some (.table .implied inner) => some ((entries.erase key).append key (.table .header inner))
  | some _ => none

/-- Opens one more table of a repeated header. -/
def openElement? (key : String) (entries : Entries) : Option Entries :=
  match entries.find? key with
  | none => some (entries.append key (.tables [] []))
  | some (.tables earlier last) => some (entries.replace key (.tables (earlier ++ [last]) []))
  | some _ => none

end Entries

/-- A key of one or more parts: the tables on the way, and the last part. -/
structure KeyPath where
  tables : List String
  last : String

namespace KeyPath

def parts (key : KeyPath) : List String :=
  key.tables ++ [key.last]

/-- The key of the given parts, of which there is at least one. -/
def ofParts (first : String) : List String → KeyPath
  | [] => ⟨[], first⟩
  | second :: rest =>
      let key := ofParts second rest
      ⟨first :: key.tables, key.last⟩

end KeyPath

/-- The entries that the pairs of a table in braces make. -/
def inlineEntries? (pairs : List (KeyPath × Item)) : Option Entries :=
  pairs.foldlM (fun entries pair => entries.add? pair.1.last pair.2 pair.1.tables) []

end DbRoute.Toml
