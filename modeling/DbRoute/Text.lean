/-!
# Texts

What the library asks of a text, which is a list of characters: its blanks, its
positions in bytes, comparison without ASCII case, the pieces between
delimiters, with or without regard to quotation, and the numbers and
form-encoded values that it writes.
-/

namespace DbRoute.Text

/-! ## Blank characters

A blank is a character with the Unicode property White_Space. Trimming strips
blanks and nothing else: the control characters U+001C to U+001F, the
zero-width space and the byte order mark stay.
-/

/-- The 25 characters of the Unicode property White_Space. -/
def isBlank (c : Char) : Bool :=
  let n := c.toNat
  (9 ≤ n && n ≤ 13) || n == 0x20 || n == 0x85 || n == 0xA0 || n == 0x1680 ||
    (0x2000 ≤ n && n ≤ 0x200A) || n == 0x2028 || n == 0x2029 || n == 0x202F ||
    n == 0x205F || n == 0x3000

def trimStart (s : List Char) : List Char :=
  s.dropWhile isBlank

def trimEnd (s : List Char) : List Char :=
  (s.reverse.dropWhile isBlank).reverse

def trim (s : List Char) : List Char :=
  trimEnd (trimStart s)

/-- Nothing but blanks, or nothing at all. -/
def allBlank (s : List Char) : Bool :=
  s.all isBlank

/-! ## Byte offsets

Positions in a text are counted in the bytes of its UTF-8 form. An offset that
falls inside a character, or past the end, is no position: cutting there
yields nothing.
-/

/-- Length of the UTF-8 form. -/
def byteSize : List Char → Nat
  | [] => 0
  | c :: s => c.utf8Size + byteSize s

/-- The two halves of a text around byte offset `n`. -/
def cutAt? (n : Nat) : List Char → Option (List Char × List Char)
  | [] => if n = 0 then some ([], []) else none
  | c :: s =>
      if n = 0 then some ([], c :: s)
      else if c.utf8Size ≤ n then
        (cutAt? (n - c.utf8Size) s).map fun halves => (c :: halves.1, halves.2)
      else none

@[simp] theorem byteSize_nil : byteSize [] = 0 := rfl

@[simp] theorem byteSize_cons (c : Char) (s : List Char) :
    byteSize (c :: s) = c.utf8Size + byteSize s := rfl

@[simp] theorem byteSize_append (s t : List Char) :
    byteSize (s ++ t) = byteSize s + byteSize t := by
  induction s with
  | nil => simp
  | cons c s ih => simp [ih, Nat.add_assoc]

@[simp] theorem cutAt?_zero (s : List Char) : cutAt? 0 s = some ([], s) := by
  cases s <;> simp [cutAt?]

/-- What is cut off behind a text begins with that text. -/
theorem cutAt?_byteSize_add_append (n : Nat) (s t : List Char) :
    cutAt? (byteSize s + n) (s ++ t) =
      (cutAt? n t).map fun halves => (s ++ halves.1, halves.2) := by
  induction s with
  | nil =>
      rw [byteSize_nil, Nat.zero_add, List.nil_append]
      exact Option.map_id'.symm
  | cons c s ih =>
      have hc := Char.utf8Size_pos c
      have hrest : c.utf8Size + byteSize s + n - c.utf8Size = byteSize s + n := by omega
      rw [byteSize_cons, List.cons_append, cutAt?, if_neg (by omega), if_pos (by omega), hrest, ih,
        Option.map_map]
      rfl

/-- Cutting at the end of the first half gives the halves back. -/
theorem cutAt?_byteSize_append (s t : List Char) : cutAt? (byteSize s) (s ++ t) = some (s, t) := by
  have h := cutAt?_byteSize_add_append 0 s t
  rwa [cutAt?_zero, Option.map_some, List.append_nil] at h

/-! ## Comparison without ASCII case

Keywords are compared up to the case of the letters A to Z; every other
character stands for itself alone. A text starts with a keyword when its
leading bytes, as many as the keyword has, spell the keyword.
-/

/-- Equality up to the case of the letters A to Z. -/
def sameIgnoringCase (s t : List Char) : Bool :=
  s.map Char.toLower == t.map Char.toLower

def startsIgnoringCase (s keyword : List Char) : Bool :=
  match cutAt? (byteSize keyword) s with
  | some (head, _) => sameIgnoringCase head keyword
  | none => false

/-! ## Pieces

A text cut at every occurrence of a character. Cutting at `n` places makes
`n + 1` pieces, some of them perhaps empty.
-/

/-- Puts a character in front of the first piece. -/
def consFirst (c : Char) : List (List Char) → List (List Char)
  | [] => [[c]]
  | piece :: pieces => (c :: piece) :: pieces

def pieces (d : Char) : List Char → List (List Char)
  | [] => [[]]
  | c :: s => if c = d then [] :: pieces d s else consFirst c (pieces d s)

/-! ## Quotation

Text between a pair of equal quotation marks, double or single, is opaque: a
delimiter inside it separates nothing, and neither does the other kind of
mark. A mark that is never closed makes the rest of the text opaque.

The state of a scan is the mark that is open, if any. A delimiter counts only
where no mark is open, so a split leaves every piece but the last one closed.
-/

def isQuote (c : Char) : Bool :=
  c == '"' || c == '\''

/-- The mark that is open after `c`, given the one that is open before it. -/
def advance (mark : Option Char) (c : Char) : Option Char :=
  match mark with
  | some q => if c = q then none else some q
  | none => if isQuote c then some c else none

/-- The mark that is open behind a text. -/
def markAfter (mark : Option Char) (s : List Char) : Option Char :=
  s.foldl advance mark

/-- Whether `c` is the delimiter `d`, outside quotation. A mark is never a delimiter. -/
def isCut (mark : Option Char) (d c : Char) : Bool :=
  mark.isNone && !isQuote c && c == d

/-- The texts on both sides of the first delimiter outside quotation. -/
def cutFrom? (mark : Option Char) (d : Char) : List Char → Option (List Char × List Char)
  | [] => none
  | c :: s =>
      if isCut mark d c then some ([], s)
      else (cutFrom? (advance mark c) d s).map fun sides => (c :: sides.1, sides.2)

def cut? (d : Char) (s : List Char) : Option (List Char × List Char) :=
  cutFrom? none d s

/-- Byte offset of the first delimiter outside quotation. -/
def cutOffset? (d : Char) (s : List Char) : Option Nat :=
  (cut? d s).map fun sides => byteSize sides.1

/-- Everything between the delimiters outside quotation, empty pieces included. -/
def piecesFrom (mark : Option Char) (d : Char) : List Char → List (List Char)
  | [] => [[]]
  | c :: s =>
      if isCut mark d c then [] :: piecesFrom none d s
      else consFirst c (piecesFrom (advance mark c) d s)

/-- Drops an empty last piece. -/
def dropEmptyLast : List (List Char) → List (List Char)
  | [] => []
  | [piece] => if piece.isEmpty then [] else [piece]
  | piece :: pieces => piece :: dropEmptyLast pieces

/-- The pieces between delimiters; a delimiter at the end opens no further piece. -/
def tokens (d : Char) (s : List Char) : List (List Char) :=
  dropEmptyLast (piecesFrom none d s)

/-- The tokens with the blanks at both ends of each stripped. -/
def trimmedTokens (d : Char) (s : List Char) : List (List Char) :=
  (tokens d s).map trim

/-- The inside of a text that starts and ends with the mark `q`. -/
def insideOf? (q : Char) : List Char → Option (List Char)
  | c :: s => if c = q ∧ s.getLast? = some q then some s.dropLast else none
  | [] => none

/-- Strips one pair of surrounding marks, if there is one. -/
def withoutMarks (s : List Char) : List Char :=
  (insideOf? '"' s <|> insideOf? '\'' s).getD s

/-! ## Digits

The ASCII digits of the bases up to sixteen, letters of either case, and the
numbers they write with the most significant digit first.
-/

/-- Value of the digit `c` in `base`, which is at most sixteen. -/
def digit? (base : Nat) (c : Char) : Option Nat :=
  let n := c.toNat
  let value :=
    if 48 ≤ n ∧ n ≤ 57 then n - 48
    else if 65 ≤ n ∧ n ≤ 70 then n - 55
    else if 97 ≤ n ∧ n ≤ 102 then n - 87
    else base
  if value < base then some value else none

/-- The number that a text writes, if all its characters are digits in `base`. -/
def numberIn? (base : Nat) (s : List Char) : Option Nat :=
  s.foldlM (fun n c => (digit? base c).map (base * n + ·)) 0

/-! ## Bounded decimal numerals

A numeral is one or more of the digits 0 to 9, after at most one plus sign.
Leading zeros are allowed. A numeral beyond the bound is refused, however long
it is: its value never wraps.
-/

/-- The value of a nonempty string of digits, if it is at most `bound`. -/
def digitsUpTo? (bound : Nat) (s : List Char) : Option Nat :=
  if s.isEmpty then none else (numberIn? 10 s).filter (· ≤ bound)

/-- The value of a numeral that is at most `bound`. -/
def numeralUpTo? (bound : Nat) : List Char → Option Nat
  | '+' :: digits => digitsUpTo? bound digits
  | s => digitsUpTo? bound s

/-! ## Form-encoded values

A value in a query is written with a plus sign for a space and with `%` and
two hexadecimal digits for a byte. A `%` that no two such digits follow stands
for itself. A value whose bytes are no UTF-8 text is taken as it is written,
plus signs included.
-/

/-- The byte that two hexadecimal digits write. -/
def hexByte? (high low : UInt8) : Option UInt8 :=
  (numberIn? 16 [Char.ofNat high.toNat, Char.ofNat low.toNat]).map UInt8.ofNat

/-- The percent sign, as a byte. -/
def percentSign : UInt8 := 37

def percentDecode : List UInt8 → List UInt8
  | b :: high :: low :: rest =>
      if b = percentSign then
        match hexByte? high low with
        | some byte => byte :: percentDecode rest
        | none => b :: percentDecode (high :: low :: rest)
      else b :: percentDecode (high :: low :: rest)
  | short => short

def plusToSpace (c : Char) : Char :=
  if c = '+' then ' ' else c

/-- The text that a form-encoded value stands for. -/
def formDecode (raw : String) : String :=
  let spaced := String.ofList (raw.toList.map plusToSpace)
  let bytes := percentDecode spaced.toUTF8.data.toList
  (String.fromUTF8? ⟨bytes.toArray⟩).getD raw

end DbRoute.Text
