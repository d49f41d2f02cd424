/-!
# Binary64 numbers

A binary64 number is a multiple of a power of two with at most 53 significant
bits, an infinity, or no number. A decimal is read as the nearest one, a tie
going to the even multiple. All of it is exact arithmetic on natural numbers.
-/

namespace DbRoute

/-- A magnitude `mantissa * 2 ^ exponent`. As the result of rounding, the
mantissa has 53 bits unless the exponent is the least one, -1074. -/
structure Magnitude where
  mantissa : Nat
  exponent : Int
  deriving DecidableEq

inductive Binary64 where
  | finite (negative : Bool) (magnitude : Magnitude)
  | infinity (negative : Bool)
  | nan
  deriving DecidableEq

namespace Magnitude

def leastExponent : Int := -1074

def greatestExponent : Int := 971

/-- The number of units of `2 ^ exponent` in `num / den`, as a quotient of natural numbers. -/
def scaled (num den : Nat) (exponent : Int) : Nat × Nat :=
  if exponent ≥ 0 then (num, den * Nat.pow 2 exponent.toNat)
  else (num * Nat.pow 2 (-exponent).toNat, den)

/-- The nearest integer to `num / den`, a tie going to the even one. -/
def roundHalfEven (num den : Nat) : Nat :=
  let q := num / den
  let twice := 2 * (num % den)
  if twice < den then q else if den < twice then q + 1 else q + q % 2

/-- The exponent at which `num / den` has 53 bits before the point, or the least one. -/
def exponentOf (num den : Nat) : Int :=
  let guess := max leastExponent ((num.log2 : Int) - den.log2 - 53)
  let (n, d) := scaled num den guess
  if n / d < Nat.pow 2 53 then guess else guess + 1

/-- The magnitude nearest to the fraction `num / den`; none if that overflows. -/
def nearest? (num den : Nat) : Option Magnitude :=
  let exponent := exponentOf num den
  let (n, d) := scaled num den exponent
  let mantissa := roundHalfEven n d
  let rounded : Magnitude :=
    if mantissa = Nat.pow 2 53 then ⟨Nat.pow 2 52, exponent + 1⟩ else ⟨mantissa, exponent⟩
  if rounded.exponent ≤ greatestExponent then some rounded else none

/-- The magnitude nearest to `digits * 10 ^ power`; none if that overflows. Far
outside the range of the format the answer is known from the size alone. -/
def ofDecimal? (digits : Nat) (power : Int) : Option Magnitude :=
  let places : Int := (Nat.toDigits 10 digits).length + power
  if digits = 0 ∨ places < -400 then some ⟨0, leastExponent⟩
  else if 400 < places then none
  else if power ≥ 0 then nearest? (digits * Nat.pow 10 power.toNat) 1
  else nearest? digits (Nat.pow 10 (-power).toNat)

end Magnitude

/-- The number nearest to a signed decimal; beyond the range an infinity. -/
def Binary64.ofDecimal (negative : Bool) (digits : Nat) (power : Int) : Binary64 :=
  match Magnitude.ofDecimal? digits power with
  | some magnitude => .finite negative magnitude
  | none => .infinity negative

/-! ## Shortest decimal text

A binary64 number is written with the fewest digits that read back as the same
number, and of those digits the ones nearest to it; of two equally near the
greater. The text is positional, whatever the size of the number: no exponent,
and no point where nothing stands behind it.
-/

namespace Magnitude

/-- A decimal `0.d₁d₂… * 10 ^ point`, by its digits and the place of its point. -/
structure Decimal where
  digits : List Char
  point : Int
  deriving DecidableEq

/-- A nonzero magnitude and the bounds within which decimals round to it, as
multiples of `1 / den`. -/
structure Span where
  low : Nat
  value : Nat
  high : Nat
  den : Nat
  /-- Whether the bounds themselves round to it. -/
  closed : Bool

/-- The neighbour below a power of two is half as far away as the one above. -/
def span (m : Magnitude) : Span :=
  let below := if m.mantissa = Nat.pow 2 52 ∧ m.exponent > leastExponent then 1 else 2
  let scale := m.exponent - 2
  let unit := if scale ≥ 0 then Nat.pow 2 scale.toNat else 1
  { low := (4 * m.mantissa - below) * unit
    value := 4 * m.mantissa * unit
    high := (4 * m.mantissa + 2) * unit
    den := if scale ≥ 0 then 1 else Nat.pow 2 (-scale).toNat
    closed := m.mantissa % 2 = 0 }

namespace Span

/-- Whether the multiple `k` of the grid `num / den` lies within the bounds. -/
def covers (s : Span) (num den k : Nat) : Bool :=
  let point := k * num * s.den
  if s.closed then s.low * den ≤ point && point ≤ s.high * den
  else s.low * den < point && point < s.high * den

/-- More places than any binary64 number has zeros after its point. -/
def places : Nat := 400

/-- The least power of ten above the value, as an exponent. -/
def magnitudeOf (s : Span) : Int :=
  (Nat.toDigits 10 (s.value * Nat.pow 10 places / s.den)).length - places

/-- The multiple of the grid `num / den` that stands for the value, if one
does: the nearer of its two neighbours, and of two equally near the greater. -/
def onGrid? (s : Span) (num den : Nat) : Option Nat :=
  let k := s.value * den / (num * s.den)
  let down := s.covers num den k
  let up := s.covers num den (k + 1)
  let upIsNear := (2 * k + 1) * num * s.den ≤ 2 * s.value * den
  if up && (!down || upIsNear) then some (k + 1)
  else if down then some k
  else none

/-- The digits on the coarsest grid with at most `count` digits from `from` on. -/
def search (s : Span) (point : Int) : Nat → Nat → Decimal
  | 0, _ => ⟨['0'], 1⟩
  | count + 1, tried =>
      let power := point - (tried + 1)
      let (num, den) :=
        if power ≥ 0 then (Nat.pow 10 power.toNat, 1) else (1, Nat.pow 10 (-power).toNat)
      match s.onGrid? num den with
      | some k =>
          let digits := Nat.toDigits 10 k
          ⟨digits, digits.length + power⟩
      | none => search s point count (tried + 1)

end Span

/-- Seventeen digits always suffice. -/
def shortest (m : Magnitude) : Decimal :=
  if m.mantissa = 0 then ⟨['0'], 1⟩
  else m.span.search m.span.magnitudeOf 17 0

end Magnitude

namespace Magnitude.Decimal

def dropTrailingZeros (digits : List Char) : List Char :=
  (digits.reverse.dropWhile (· == '0')).reverse

/-- Positional text: zeros fill the places up to the point. -/
def text (d : Decimal) : List Char :=
  let digits := dropTrailingZeros d.digits
  if digits.isEmpty then ['0']
  else if d.point ≤ 0 then '0' :: '.' :: List.replicate (-d.point).toNat '0' ++ digits
  else
    let whole := d.point.toNat
    if digits.length ≤ whole then digits ++ List.replicate (whole - digits.length) '0'
    else digits.take whole ++ '.' :: digits.drop whole

end Magnitude.Decimal

namespace Binary64

def sign (negative : Bool) : List Char :=
  if negative then ['-'] else []

/-- The sign of zero is kept; what is no number has none. -/
def text : Binary64 → String
  | nan => "NaN"
  | infinity negative => String.ofList (sign negative ++ "inf".toList)
  | finite negative magnitude => String.ofList (sign negative ++ magnitude.shortest.text)

end Binary64

end DbRoute
