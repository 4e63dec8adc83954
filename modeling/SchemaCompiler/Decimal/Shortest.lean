import SchemaCompiler.Decimal.Binary64

/-!
Contract: the fewest decimal digits that read back to a given binary64 value.

Owns:
- the interval of reals that round to a value, as exact integers;
- `Binary64.shortest`, the nearest of the shortest decimals inside that
  interval, an exact tie going to the even digit;
- `DecimalNotation`, the layout decisions of a number text, and
  `Binary64.text`, which lays the digits out.

Does not own: the texts of infinities, which no caller writes.
-/

namespace SchemaCompiler

/-- A positive decimal `digits * 10 ^ power` without trailing zeros. -/
structure ShortDecimal where
  digits : Nat
  power : Int
deriving DecidableEq, Repr

namespace ShortDecimal

/-- Drops trailing zeros of the digits, at most `fuel` of them. -/
def trimmed (fuel : Nat) (decimal : ShortDecimal) : ShortDecimal :=
  match fuel with
  | 0 => decimal
  | fuel + 1 =>
      if decimal.digits % 10 = 0 ∧ decimal.digits ≠ 0 then
        trimmed fuel ⟨decimal.digits / 10, decimal.power + 1⟩
      else decimal

end ShortDecimal

namespace Binary64

/-- The reals that round to a value, as `low / unit` to `high / unit` around
`centre / unit`; the ends belong to it when `closed`. -/
structure RoundingInterval where
  low : Nat
  centre : Nat
  high : Nat
  unit : Nat
  closed : Bool

/-- The rounding interval of a finite positive value. Below a power of two the
gap is half as wide, and the ends round to the value when its significand is
even. -/
def roundingInterval (value : Binary64) : RoundingInterval :=
  let significand := value.significand
  let exponent := value.exponent - 2
  let narrow := significand = Nat.pow 2 fractionBits ∧ 1 < value.exponentField
  let factor := if 0 ≤ exponent then Nat.pow 2 exponent.toNat else 1
  { low := (4 * significand - if narrow then 1 else 2) * factor
    centre := 4 * significand * factor
    high := (4 * significand + 2) * factor
    unit := if 0 ≤ exponent then 1 else Nat.pow 2 (-exponent).toNat
    closed := significand % 2 = 0 }

namespace RoundingInterval

/-- The interval measured in units of `10 ^ power`. -/
def inUnitsOf (interval : RoundingInterval) (power : Int) : RoundingInterval :=
  if 0 ≤ power then { interval with unit := interval.unit * Nat.pow 10 power.toNat }
  else
    let factor := Nat.pow 10 (-power).toNat
    { interval with
      low := interval.low * factor
      centre := interval.centre * factor
      high := interval.high * factor }

/-- True when the integer `point` lies in the interval. -/
def contains (interval : RoundingInterval) (point : Nat) : Bool :=
  let scaled := point * interval.unit
  if interval.closed then interval.low ≤ scaled && scaled ≤ interval.high
  else interval.low < scaled && scaled < interval.high

/-- The integer in the interval nearest to its centre, among the two
neighbours of the centre. -/
def nearestInteger? (interval : RoundingInterval) : Option Nat :=
  let below := interval.centre / interval.unit
  let above := below + 1
  let rest := 2 * (interval.centre % interval.unit)
  match interval.contains below, interval.contains above with
  | false, false => none
  | true, false => some below
  | false, true => some above
  | true, true =>
      if rest < interval.unit then some below
      else if interval.unit < rest then some above
      else some (if below % 2 = 0 then below else above)

/-- The power of ten of the leading digit of the centre. -/
def leadingPower (interval : RoundingInterval) : Int :=
  if interval.unit ≤ interval.centre then
    ((Nat.toDigits 10 (interval.centre / interval.unit)).length : Int) - 1
  else
    -- The quotient unit / centre has the digit count of the leading power, up to one.
    let guess : Int := -((Nat.toDigits 10 (interval.unit / interval.centre)).length : Int)
    let scaled := interval.inUnitsOf guess
    if scaled.centre < 10 * scaled.unit then guess else guess + 1

end RoundingInterval

/-- The shortest decimal that reads back to a finite positive value. Grids of
1, 2, … 17 digits are tried in turn; 17 digits always suffice. -/
def shortest (value : Binary64) : ShortDecimal :=
  let interval := value.roundingInterval
  let leading := interval.leadingPower
  let candidate (count : Nat) : Option ShortDecimal :=
    let power := leading - (count : Int) + 1
    (interval.inUnitsOf power).nearestInteger?.map fun digits =>
      ShortDecimal.trimmed 17 ⟨digits, power⟩
  ((List.range 17).findSome? fun count => candidate (count + 1)).getD ⟨0, 0⟩

end Binary64

/-- Where a number text is written positionally: from the decimal exponent
`lowest` to `highest`. -/
structure DecimalNotation where
  lowest : Int
  highest : Int

namespace DecimalNotation

/-- The decimal digits of a natural number. -/
def digitText (number : Nat) : List Char :=
  Nat.toDigits 10 number

/-- Positional text with at least one fraction digit. -/
def positional (digits : List Char) (exponent : Int) : List Char :=
  if exponent < 0 then
    ['0', '.'] ++ List.replicate (-exponent - 1).toNat '0' ++ digits
  else
    let whole := exponent.toNat + 1
    let padded := digits ++ List.replicate (whole - digits.length) '0'
    let fraction := padded.drop whole
    padded.take whole ++ ['.'] ++ (if fraction.isEmpty then ['0'] else fraction)

/-- Exponent text: the sign is always written, and a lone digit stands without
a point. -/
def scientific (digits : List Char) (exponent : Int) : List Char :=
  let mantissa :=
    match digits with
    | lead :: next :: rest => lead :: '.' :: next :: rest
    | short => short
  mantissa ++ ['e', if exponent < 0 then '-' else '+'] ++ digitText exponent.natAbs

def render (format : DecimalNotation) (value : Binary64) : List Char :=
  let sign := if value.isNegative then ['-'] else []
  if value.significand = 0 then sign ++ ['0', '.', '0']
  else
    let decimal := value.shortest
    let digits := digitText decimal.digits
    let exponent := decimal.power + (digits.length : Int) - 1
    if format.lowest ≤ exponent ∧ exponent ≤ format.highest then
      sign ++ positional digits exponent
    else sign ++ scientific digits exponent

end DecimalNotation

end SchemaCompiler
