import DbRoute.Properties
import DbRoute.Text

/-!
# Properties as a JSON object

Properties are written as one JSON object of strings, in their order and
without spaces. Quotation marks, backslashes and control characters below
U+0020 are escaped, everything else stands as it is. Reading takes any JSON
object of strings with any white space between its tokens; a repeated key
keeps its first place and its last value.
-/

namespace DbRoute.Json

open Text

/-- The lower-case hexadecimal digit of `n`, which is below sixteen. -/
def hexDigit (n : Nat) : Char :=
  Char.ofNat (if n < 10 then 48 + n else 87 + n)

def escape (c : Char) : List Char :=
  if c = '"' then ['\\', '"']
  else if c = '\\' then ['\\', '\\']
  else if c.toNat = 8 then ['\\', 'b']
  else if c.toNat = 12 then ['\\', 'f']
  else if c = '\n' then ['\\', 'n']
  else if c = '\r' then ['\\', 'r']
  else if c = '\t' then ['\\', 't']
  else if c.toNat < 0x20 then
    ['\\', 'u', '0', '0', hexDigit (c.toNat / 16), hexDigit (c.toNat % 16)]
  else [c]

def quote (s : String) : List Char :=
  '"' :: s.toList.flatMap escape ++ ['"']

def member (pair : Pair) : List Char :=
  quote pair.1 ++ ':' :: quote pair.2

def members : List Pair → List Char
  | [] => []
  | [pair] => member pair
  | pair :: rest => member pair ++ ',' :: members rest

def isSpace (c : Char) : Bool :=
  c == ' ' || c == '\n' || c == '\t' || c == '\r'

def skipSpace (s : List Char) : List Char :=
  s.dropWhile isSpace

/-- The character that a one-letter escape stands for. -/
def shortEscape? (c : Char) : Option Char :=
  if c = '"' ∨ c = '\\' ∨ c = '/' then some c
  else if c = 'b' then some (Char.ofNat 8)
  else if c = 'f' then some (Char.ofNat 12)
  else if c = 'n' then some '\n'
  else if c = 'r' then some '\r'
  else if c = 't' then some '\t'
  else none

def isHighSurrogate (n : Nat) : Bool := 0xD800 ≤ n && n ≤ 0xDBFF

def isLowSurrogate (n : Nat) : Bool := 0xDC00 ≤ n && n ≤ 0xDFFF

/-- The character outside the basic plane that a pair of surrogates writes. -/
def fromSurrogates (high low : Nat) : Char :=
  Char.ofNat (0x10000 + (high - 0xD800) * 0x400 + (low - 0xDC00))

/-- What the next character of a string is read as. -/
inductive Mode where
  | plain
  /-- The letter after a backslash. -/
  | letter
  /-- One of `left` further hexadecimal digits of a code unit, after digits that write `unit`. -/
  | digit (left unit : Nat)
  /-- The backslash, and then the `u`, of the second half of a pair begun by `high`. -/
  | secondHalf (high : Nat)
  | secondLetter (high : Nat)
  | secondDigit (high left unit : Nat)

/-- The rest of a string after its opening mark, and what follows the closing one. -/
def readString? : Mode → List Char → Option (List Char × List Char)
  | _, [] => none
  | .plain, c :: s =>
      if c = '"' then some ([], s)
      else if c = '\\' then readString? .letter s
      else if c.toNat < 0x20 then none
      else (readString? .plain s).map fun r => (c :: r.1, r.2)
  | .letter, c :: s =>
      if c = 'u' then readString? (.digit 4 0) s
      else
        match shortEscape? c with
        | some x => (readString? .plain s).map fun r => (x :: r.1, r.2)
        | none => none
  | .digit left unit, c :: s =>
      match digit? 16 c with
      | none => none
      | some d =>
          let unit := 16 * unit + d
          if left ≠ 1 then readString? (.digit (left - 1) unit) s
          else if isHighSurrogate unit then readString? (.secondHalf unit) s
          else if isLowSurrogate unit then none
          else (readString? .plain s).map fun r => (Char.ofNat unit :: r.1, r.2)
  | .secondHalf high, c :: s =>
      if c = '\\' then readString? (.secondLetter high) s else none
  | .secondLetter high, c :: s =>
      if c = 'u' then readString? (.secondDigit high 4 0) s else none
  | .secondDigit high left unit, c :: s =>
      match digit? 16 c with
      | none => none
      | some d =>
          let unit := 16 * unit + d
          if left ≠ 1 then readString? (.secondDigit high (left - 1) unit) s
          else if isLowSurrogate unit then
            (readString? .plain s).map fun r => (fromSurrogates high unit :: r.1, r.2)
          else none

def readQuoted? (s : List Char) : Option (String × List Char) :=
  match s with
  | '"' :: rest => (readString? .plain rest).map fun r => (String.ofList r.1, r.2)
  | _ => none

def readMember? (s : List Char) : Option (Pair × List Char) := do
  let (key, afterKey) ← readQuoted? s
  match skipSpace afterKey with
  | ':' :: afterColon =>
      let (value, rest) ← readQuoted? (skipSpace afterColon)
      return ((key, value), rest)
  | _ => none

/-- Members up to the closing brace, the first of them at the start of the
text. Every member takes a character, so `fuel` may be the length of the text. -/
def readMembers? : Nat → List Char → Option (List Pair × List Char)
  | 0, _ => none
  | fuel + 1, s => do
      let (pair, afterMember) ← readMember? s
      match skipSpace afterMember with
      | '}' :: rest => return ([pair], rest)
      | ',' :: afterComma =>
          let (pairs, rest) ← readMembers? fuel (skipSpace afterComma)
          return (pair :: pairs, rest)
      | _ => none

/-- The members of an object that is the whole text, but for white space. -/
def readObject? (s : List Char) : Option (List Pair) :=
  match skipSpace s with
  | '{' :: inner =>
      let found := match skipSpace inner with
        | '}' :: rest => some ([], rest)
        | first => readMembers? s.length first
      found.bind fun r => if (skipSpace r.2).isEmpty then some r.1 else none
  | _ => none

end DbRoute.Json

namespace DbRoute.Properties

def toJson (p : Properties) : String :=
  String.ofList ('{' :: Json.members p.pairs ++ ['}'])

def ofJson? (text : String) : Option Properties :=
  (Json.readObject? text.toList).map ofList

end DbRoute.Properties
