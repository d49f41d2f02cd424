import DbRoute.Text

/-!
# Dates and times

A TOML date, a time of day, or both, and with both perhaps an offset from UTC.
A date must be in the calendar; a minute may have a sixty-first second; digits
of a second beyond the ninth are cut off. The text of a value puts a `T`
between its parts and writes a fraction without zeros at its end.
-/

namespace DbRoute.Toml

structure Date where
  year : Nat
  month : Nat
  day : Nat
  deriving DecidableEq

structure Time where
  hour : Nat
  minute : Nat
  second : Nat
  nanosecond : Nat
  deriving DecidableEq

inductive TimeOffset where
  | utc
  | minutes (count : Int)
  deriving DecidableEq

inductive DateTime where
  | date (date : Date)
  | time (time : Time)
  | both (date : Date) (time : Time) (offset : Option TimeOffset)
  deriving DecidableEq

/-- Days of a month in the Gregorian calendar. -/
def daysIn (year month : Nat) : Nat :=
  if month = 2 then
    if year % 4 = 0 ∧ (year % 100 ≠ 0 ∨ year % 400 = 0) then 29 else 28
  else if month = 4 ∨ month = 6 ∨ month = 9 ∨ month = 11 then 30
  else 31

/-- Exactly `count` decimal digits. -/
def readFixed? (count : Nat) (s : List Char) : Option (Nat × List Char) :=
  if s.length < count then none
  else (Text.numberIn? 10 (s.take count)).map fun n => (n, s.drop count)

def readChar? (c : Char) : List Char → Option (List Char)
  | x :: s => if x = c then some s else none
  | [] => none

def readDate? (s : List Char) : Option (Date × List Char) := do
  let (year, s) ← readFixed? 4 s
  let (month, s) ← readFixed? 2 (← readChar? '-' s)
  let (day, s) ← readFixed? 2 (← readChar? '-' s)
  if 1 ≤ month ∧ month ≤ 12 ∧ 1 ≤ day ∧ day ≤ daysIn year month then
    return (⟨year, month, day⟩, s)
  else none

/-- The billionths that the digits after the point of a second write. -/
def nanoseconds? (digits : List Char) : Option Nat :=
  Text.numberIn? 10 ((digits ++ List.replicate 9 '0').take 9)

/-- A fraction of a second; none read where no digit follows the point. -/
def readFraction (s : List Char) : Nat × List Char :=
  match s with
  | '.' :: rest =>
      let digits := rest.takeWhile Char.isDigit
      match digits.isEmpty, nanoseconds? digits with
      | false, some n => (n, rest.dropWhile Char.isDigit)
      | _, _ => (0, s)
  | _ => (0, s)

def readTime? (s : List Char) : Option (Time × List Char) := do
  let (hour, s) ← readFixed? 2 s
  let (minute, s) ← readFixed? 2 (← readChar? ':' s)
  let (second, s) ← readFixed? 2 (← readChar? ':' s)
  let (nanosecond, s) := readFraction s
  if hour ≤ 23 ∧ minute ≤ 59 ∧ second ≤ 60 then
    return (⟨hour, minute, second, nanosecond⟩, s)
  else none

def readMinutes? (s : List Char) : Option (Nat × List Char) := do
  let (hour, s) ← readFixed? 2 s
  let (minute, s) ← readFixed? 2 (← readChar? ':' s)
  if hour ≤ 23 ∧ minute ≤ 59 then return (60 * hour + minute, s) else none

def readOffset (s : List Char) : Option TimeOffset × List Char :=
  match s with
  | [] => (none, s)
  | c :: rest =>
      if c = 'Z' ∨ c = 'z' then (some .utc, rest)
      else
        match readMinutes? rest with
        | some (count, after) =>
            if c = '+' then (some (.minutes count), after)
            else if c = '-' then (some (.minutes (-count)), after)
            else (none, s)
        | none => (none, s)

/-- A date and what the rest of the text adds to it. -/
def readAfterDate (date : Date) (s : List Char) : DateTime × List Char :=
  match s with
  | [] => (.date date, s)
  | c :: rest =>
      if c = 'T' ∨ c = 't' ∨ c = ' ' then
        match readTime? rest with
        | some (time, after) =>
            let (offset, after) := readOffset after
            (.both date time offset, after)
        | none => (.date date, s)
      else (.date date, s)

def readDateTime? (s : List Char) : Option (DateTime × List Char) :=
  match readDate? s with
  | some (date, rest) => some (readAfterDate date rest)
  | none => (readTime? s).map fun r => (.time r.1, r.2)

/-- The date or time that the whole of a text spells. -/
def DateTime.ofText? (s : List Char) : Option DateTime :=
  match readDateTime? s with
  | some (value, []) => some value
  | _ => none

/-- A number with zeros in front, `width` digits at the least. -/
def padded (width n : Nat) : List Char :=
  let digits := Nat.toDigits 10 n
  List.replicate (width - digits.length) '0' ++ digits

def Date.text (d : Date) : List Char :=
  padded 4 d.year ++ '-' :: padded 2 d.month ++ '-' :: padded 2 d.day

def fractionText (nanosecond : Nat) : List Char :=
  if nanosecond = 0 then []
  else '.' :: ((padded 9 nanosecond).reverse.dropWhile (· == '0')).reverse

def Time.text (t : Time) : List Char :=
  padded 2 t.hour ++ ':' :: padded 2 t.minute ++ ':' :: padded 2 t.second ++
    fractionText t.nanosecond

def TimeOffset.text : TimeOffset → List Char
  | utc => ['Z']
  | minutes count =>
      (if count < 0 then '-' else '+') ::
        padded 2 (count.natAbs / 60) ++ ':' :: padded 2 (count.natAbs % 60)

def DateTime.text : DateTime → List Char
  | date d => d.text
  | time t => t.text
  | both d t offset => d.text ++ 'T' :: t.text ++ (offset.map TimeOffset.text).getD []

end DbRoute.Toml
