import DbRoute.Toml.Table

/-!
# Keys and values

Keys, bare or quoted and with dots between their parts, and values: scalars,
arrays, which may run over several lines and end in a comma, and tables in
braces, which may do neither. Arrays and tables in braces nest up to 79 deep,
and a key has at most 79 parts.
-/

namespace DbRoute.Toml

/-- Arrays and tables in braces nest this deep at most. -/
def maxNesting : Nat := 79

/-- A key has at most this many parts. -/
def maxKeyParts : Nat := 79

def skipSpace (s : List Char) : List Char :=
  s.dropWhile isSpace

/-- Skips spaces, line breaks and comments. A comment that holds a control
character is skipped only up to it, so that nothing can follow. -/
def skipLines (inComment : Bool) : List Char → List Char
  | [] => []
  | c :: s =>
      if c = '\n' then skipLines false s
      else if inComment then if isPlain c then skipLines true s else c :: s
      else if isSpace c then skipLines false s
      else if c = '#' then skipLines true s
      else c :: s

def isBare (c : Char) : Bool :=
  c.isAlphanum || c == '-' || c == '_'

def readBare? (s : List Char) : Option (List Char × List Char) :=
  let name := s.takeWhile isBare
  if name.isEmpty then none else some (name, s.dropWhile isBare)

/-- One part of a key. -/
def readKeyPart? (s : List Char) : Option (String × List Char) :=
  (readQuotedLine? s <|> readBare? s).map fun r => (String.ofList r.1, r.2)

/-- The parts of a key after its first one; each takes a dot at the least, so
`fuel` may be the length of the text. The spaces behind each part are skipped. -/
def readKeyTail? : Nat → List Char → Option (List String × List Char)
  | 0, s => some ([], s)
  | fuel + 1, s =>
      match s with
      | '.' :: s => do
          let (part, s) ← readKeyPart? (skipSpace s)
          let (parts, s) ← readKeyTail? fuel (skipSpace s)
          return (part :: parts, s)
      | s => some ([], s)

/-- A key with the spaces around it. -/
def readKey? (s : List Char) : Option (KeyPath × List Char) := do
  let (first, s) ← readKeyPart? (skipSpace s)
  let (rest, s) ← readKeyTail? s.length (skipSpace s)
  if rest.length < maxKeyParts then return (KeyPath.ofParts first rest, s) else none

/-- A key, the equals sign, and a value. -/
def readPair? (value? : List Char → Option (Item × List Char)) (s : List Char) :
    Option ((KeyPath × Item) × List Char) := do
  let (key, s) ← readKey? s
  match s with
  | '=' :: s =>
      let (item, s) ← value? (skipSpace s)
      return ((key, item), s)
  | _ => none

/-- The items of an array up to its closing bracket; each round takes a
character at the least. -/
def readItems? (value? : List Char → Option (Item × List Char)) :
    Nat → List Char → Option (List Item × List Char)
  | 0, _ => none
  | fuel + 1, s =>
      match skipLines false s with
      | ']' :: rest => some ([], rest)
      | first => do
          let (item, s) ← value? first
          match skipLines false s with
          | ',' :: s =>
              let (items, s) ← readItems? value? fuel s
              return (item :: items, s)
          | ']' :: s => return ([item], s)
          | _ => none

/-- The pairs of a nonempty table in braces up to its closing brace. -/
def readPairs? (value? : List Char → Option (Item × List Char)) :
    Nat → List Char → Option (List (KeyPath × Item) × List Char)
  | 0, _ => none
  | fuel + 1, s => do
      let (pair, s) ← readPair? value? s
      match skipSpace s with
      | ',' :: s =>
          let (pairs, s) ← readPairs? value? fuel s
          return (pair :: pairs, s)
      | '}' :: s => return ([pair], s)
      | _ => none

/-- A table in braces after its opening brace. -/
def readInline? (value? : List Char → Option (Item × List Char)) (s : List Char) :
    Option (Item × List Char) := do
  let (pairs, rest) ←
    match skipSpace s with
    | '}' :: rest => some ([], rest)
    | _ => readPairs? value? s.length s
  return (.table .inline (← inlineEntries? pairs), rest)

/-- A value with at most `depth` arrays and tables in braces around any scalar in it. -/
def readValue? : Nat → List Char → Option (Item × List Char)
  | 0, s => (readScalar? s).map fun r => (.scalar r.1, r.2)
  | depth + 1, s =>
      match s with
      | '[' :: s => (readItems? (readValue? depth) s.length s).map fun r => (.array r.1, r.2)
      | '{' :: s => readInline? (readValue? depth) s
      | s => (readScalar? s).map fun r => (.scalar r.1, r.2)

end DbRoute.Toml
