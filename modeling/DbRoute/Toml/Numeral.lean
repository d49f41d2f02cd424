import DbRoute.Binary64
import DbRoute.Text

/-!
# Numerals

TOML integers, in base 10 with an optional sign or in base 16, 8 or 2 after
`0x`, `0o` or `0b`, and TOML floats, with a fraction, an exponent or both. A
single underscore may stand between two digits. Integers have 64 bits and a
sign; a float above the greatest finite number is refused, and one below the
least is the negative infinity.
-/

namespace DbRoute.Toml

/-- The digits at the start of a text, where an underscore may stand before each. -/
def moreDigits (base : Nat) : List Char → List Char × List Char
  | [] => ([], [])
  | '_' :: c :: s =>
      if (Text.digit? base c).isSome then
        let r := moreDigits base s
        (c :: r.1, r.2)
      else ([], '_' :: c :: s)
  | c :: s =>
      if (Text.digit? base c).isSome then
        let r := moreDigits base s
        (c :: r.1, r.2)
      else ([], c :: s)

/-- A digit and the digits after it, without their underscores. -/
def readDigits? (base : Nat) : List Char → Option (List Char × List Char)
  | [] => none
  | c :: s =>
      if (Text.digit? base c).isSome then
        let r := moreDigits base s
        some (c :: r.1, r.2)
      else none

/-- Whether a minus sign stands in front, and the text after a sign. -/
def readSign : List Char → Bool × List Char
  | '-' :: s => (true, s)
  | '+' :: s => (false, s)
  | s => (false, s)

/-- The digits of a decimal integer; a zero in front stands alone. -/
def readWhole? : List Char → Option (List Char × List Char)
  | '0' :: s => some (['0'], s)
  | s => readDigits? 10 s

/-- The integer of the given sign and size, if 64 bits hold it. -/
def int64? (negative : Bool) (size : Nat) : Option Int :=
  if negative then if size ≤ 0x8000000000000000 then some (-(size : Int)) else none
  else if size < 0x8000000000000000 then some size else none

def readInBase? (base : Nat) (s : List Char) : Option (Int × List Char) := do
  let (digits, rest) ← readDigits? base s
  return (← int64? false (← Text.numberIn? base digits), rest)

def readInteger? : List Char → Option (Int × List Char)
  | '0' :: 'x' :: s => readInBase? 16 s
  | '0' :: 'o' :: s => readInBase? 8 s
  | '0' :: 'b' :: s => readInBase? 2 s
  | s => do
      let (negative, unsigned) := readSign s
      let (digits, rest) ← readWhole? unsigned
      return (← int64? negative (← Text.numberIn? 10 digits), rest)

def readFraction? : List Char → Option (List Char × List Char)
  | '.' :: s => readDigits? 10 s
  | _ => none

def readExponent? : List Char → Option (Int × List Char)
  | c :: s =>
      if c = 'e' ∨ c = 'E' then do
        let (negative, unsigned) := readSign s
        let (digits, rest) ← readDigits? 10 unsigned
        let size ← Text.numberIn? 10 digits
        return (if negative then -(size : Int) else size, rest)
      else none
  | [] => none

/-- What stands behind the whole part of a float: the digits of its fraction and its exponent. -/
def readFloatTail? (s : List Char) : Option (List Char × Int × List Char) :=
  match readFraction? s with
  | some (fraction, rest) =>
      match readExponent? rest with
      | some (exponent, rest) => some (fraction, exponent, rest)
      | none => some (fraction, 0, rest)
  | none => (readExponent? s).map fun r => ([], r.1, r.2)

def readDecimalFloat? (s : List Char) : Option (Binary64 × List Char) := do
  let (negative, unsigned) := readSign s
  let (whole, rest) ← readWhole? unsigned
  let (fraction, exponent, rest) ← readFloatTail? rest
  let digits ← Text.numberIn? 10 (whole ++ fraction)
  let value := Binary64.ofDecimal negative digits (exponent - fraction.length)
  if value = .infinity false then none else return (value, rest)

/-- An infinity or no number, with an optional sign, which only an infinity keeps. -/
def readSpecialFloat? (s : List Char) : Option (Binary64 × List Char) :=
  match readSign s with
  | (negative, 'i' :: 'n' :: 'f' :: rest) => some (.infinity negative, rest)
  | (_, 'n' :: 'a' :: 'n' :: rest) => some (.nan, rest)
  | _ => none

def readFloat? (s : List Char) : Option (Binary64 × List Char) :=
  readDecimalFloat? s <|> readSpecialFloat? s

end DbRoute.Toml
