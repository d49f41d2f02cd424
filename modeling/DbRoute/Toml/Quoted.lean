import DbRoute.Text

/-!
# Quoted text

The four TOML strings: basic ones, in which a backslash escapes, and literal
ones, each on one line or on several between tripled marks. Inside tripled
marks one or two marks in a row are text, and up to two stand right before the
closing three; a line break right after the opening marks is dropped; and a
backslash at the end of a line of a basic string drops the break and all white
space up to the next text. Line breaks are single line feeds here.
-/

namespace DbRoute.Toml

/-- A character that comments and strings hold as it is: no control character but the tab. -/
def isPlain (c : Char) : Bool :=
  c == '\t' || (0x20 ≤ c.toNat && c.toNat ≠ 0x7F)

def isSpace (c : Char) : Bool :=
  c == ' ' || c == '\t'

/-- The character that a one-letter escape stands for. -/
def shortEscape? (c : Char) : Option Char :=
  if c = '"' ∨ c = '\\' then some c
  else if c = 'b' then some (Char.ofNat 8)
  else if c = 'f' then some (Char.ofNat 12)
  else if c = 'n' then some '\n'
  else if c = 'r' then some '\r'
  else if c = 't' then some '\t'
  else none

/-- What the next character of a basic string is read as. -/
inductive Mode where
  | plain
  /-- The letter after a backslash. -/
  | letter
  /-- One of `left` further hexadecimal digits, after digits that write `value`. -/
  | digit (left value : Nat)
  /-- White space between a backslash and the end of its line. -/
  | lineEnd
  /-- White space that such a backslash drops. -/
  | dropped
  deriving DecidableEq

/-- The text and the rest, where three marks `q` have just been read: two more
of them may belong to the text. -/
def afterTriple (q : Char) (s : List Char) : List Char × List Char :=
  let extra := min 2 (s.takeWhile (· == q)).length
  (List.replicate extra q, s.drop extra)

def startsTwice (q : Char) (s : List Char) : Bool :=
  s.take 2 == [q, q]

/-- The rest of a basic string after its opening marks, and what follows the closing ones. -/
def readBasic? (multiline : Bool) : Mode → List Char → Option (List Char × List Char)
  | _, [] => none
  | .letter, c :: s =>
      if c = 'u' then readBasic? multiline (.digit 4 0) s
      else if c = 'U' then readBasic? multiline (.digit 8 0) s
      else if multiline && c == '\n' then readBasic? multiline .dropped s
      else if multiline && isSpace c then readBasic? multiline .lineEnd s
      else
        match shortEscape? c with
        | some x => (readBasic? multiline .plain s).map fun r => (x :: r.1, r.2)
        | none => none
  | .digit left value, c :: s =>
      match Text.digit? 16 c with
      | none => none
      | some d =>
          let value := 16 * value + d
          if left ≠ 1 then readBasic? multiline (.digit (left - 1) value) s
          else if value.isValidChar then
            (readBasic? multiline .plain s).map fun r => (Char.ofNat value :: r.1, r.2)
          else none
  | .lineEnd, c :: s =>
      if c = '\n' then readBasic? multiline .dropped s
      else if isSpace c then readBasic? multiline .lineEnd s
      else none
  | mode, c :: s =>
      if mode = .dropped ∧ (isSpace c ∨ c = '\n') then readBasic? multiline .dropped s
      else if c = '"' then
        if !multiline then some ([], s)
        else if startsTwice '"' s then some (afterTriple '"' (s.drop 2))
        else (readBasic? multiline .plain s).map fun r => (c :: r.1, r.2)
      else if c = '\\' then readBasic? multiline .letter s
      else if isPlain c || (multiline && c == '\n') then
        (readBasic? multiline .plain s).map fun r => (c :: r.1, r.2)
      else none

/-- The rest of a literal string after its opening marks, and what follows the closing ones. -/
def readLiteral? (multiline : Bool) : List Char → Option (List Char × List Char)
  | [] => none
  | c :: s =>
      if c = '\'' then
        if !multiline then some ([], s)
        else if startsTwice '\'' s then some (afterTriple '\'' (s.drop 2))
        else (readLiteral? multiline s).map fun r => (c :: r.1, r.2)
      else if isPlain c || (multiline && c == '\n') then
        (readLiteral? multiline s).map fun r => (c :: r.1, r.2)
      else none

def dropLineFeed : List Char → List Char
  | '\n' :: s => s
  | s => s

/-- A string on one line, as a key may be. -/
def readQuotedLine? : List Char → Option (List Char × List Char)
  | '"' :: s => readBasic? false .plain s
  | '\'' :: s => readLiteral? false s
  | _ => none

/-- Any string. -/
def readQuoted? : List Char → Option (List Char × List Char)
  | '"' :: s =>
      if startsTwice '"' s then readBasic? true .plain (dropLineFeed (s.drop 2))
      else readBasic? false .plain s
  | '\'' :: s =>
      if startsTwice '\'' s then readLiteral? true (dropLineFeed (s.drop 2))
      else readLiteral? false s
  | _ => none

end DbRoute.Toml
