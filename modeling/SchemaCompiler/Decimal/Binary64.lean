/-!
Contract: 64-bit binary floating point values as exact scaled integers.

Owns:
- `Binary64`, one value given by its bit pattern;
- `Binary64.nearest`, the value nearest to a decimal, a half going to the even
  significand;
- the decoding of a finite value into `significand * 2 ^ exponent`.

Does not own: floating point arithmetic, or the text of a value.
-/

namespace SchemaCompiler

/-- A 64-bit binary floating point value. -/
structure Binary64 where
  bits : UInt64
deriving DecidableEq, Repr

namespace Binary64

def fractionBits : Nat := 52

/-- The exponent field shared by infinities and by values that are no number. -/
def exponentLimit : Nat := 2047

/-- True for negative values and for the negative zero. -/
def isNegative (value : Binary64) : Bool :=
  value.bits.toNat / Nat.pow 2 63 = 1

def exponentField (value : Binary64) : Nat :=
  value.bits.toNat / Nat.pow 2 fractionBits % Nat.pow 2 11

def fractionField (value : Binary64) : Nat :=
  value.bits.toNat % Nat.pow 2 fractionBits

/-- True unless the value is infinite or no number. -/
def isFinite (value : Binary64) : Bool :=
  value.exponentField < exponentLimit

/-- The integer significand of a finite value. -/
def significand (value : Binary64) : Nat :=
  if value.exponentField = 0 then value.fractionField
  else Nat.pow 2 fractionBits + value.fractionField

/-- The power of two that scales the significand. -/
def exponent (value : Binary64) : Int :=
  if value.exponentField = 0 then -1074 else (value.exponentField : Int) - 1075

/-- The quotient rounded to the nearest integer, a half going to the even one. -/
def roundedQuotient (numerator denominator : Nat) : Nat :=
  let quotient := numerator / denominator
  let doubledRest := 2 * (numerator % denominator)
  if denominator < doubledRest then quotient + 1
  else if doubledRest = denominator then quotient + quotient % 2
  else quotient

/-- The bits of the magnitude nearest to `numerator / denominator`, or those of
infinity when the quotient is too large.

The scale is chosen so that the rounded significand has 53 bits, or fewer at
the smallest exponent; a significand that rounds up to a power of two carries
into the exponent field by plain addition. -/
def magnitudeBits (numerator denominator : Nat) : Nat :=
  if numerator = 0 then 0
  else
    let guess : Int := (numerator.log2 : Int) - (denominator.log2 : Int) - fractionBits
    let scaled (scale : Int) : Nat × Nat :=
      if 0 ≤ scale then (numerator, denominator * Nat.pow 2 scale.toNat)
      else (numerator * Nat.pow 2 (-scale).toNat, denominator)
    let fits (scale : Int) : Bool :=
      let (top, bottom) := scaled scale
      bottom * Nat.pow 2 fractionBits ≤ top
    let scale := max (-1074) (if fits guess then guess else guess - 1)
    let (top, bottom) := scaled scale
    let bits := (scale + 1074).toNat * Nat.pow 2 fractionBits + roundedQuotient top bottom
    min bits (exponentLimit * Nat.pow 2 fractionBits)

/-- The value nearest to `coefficient * 10 ^ power`, negated when `negative`.

A decimal far outside the range of finite values is settled by its digit count
alone, so that no huge power of ten is ever formed. -/
def nearest (negative : Bool) (coefficient : Nat) (power : Int) : Binary64 :=
  let digits : Int := (Nat.toDigits 10 coefficient).length
  let magnitude :=
    if coefficient = 0 ∨ digits + power < -330 then 0
    else if 320 < digits + power then exponentLimit * Nat.pow 2 fractionBits
    else if 0 ≤ power then magnitudeBits (coefficient * Nat.pow 10 power.toNat) 1
    else magnitudeBits coefficient (Nat.pow 10 (-power).toNat)
  ⟨UInt64.ofNat ((if negative then Nat.pow 2 63 else 0) + magnitude)⟩

end Binary64

end SchemaCompiler
