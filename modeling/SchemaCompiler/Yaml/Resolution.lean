import SchemaCompiler.Yaml.Event
import SchemaCompiler.Json.Reader

/-!
Contract: the values of scalars.

Owns:
- the spellings of null, booleans, integers and floating point numbers;
- `Scalar.value?`, the value of a scalar under its tag, or by its spelling when
  it is plain and untagged.

Integers are decimal without leading zeros, or hexadecimal, octal or binary
behind `0x`, `0o` and `0b`. One that fits no 64-bit word but still 128 bits has
no value; a decimal one beyond that is a floating point number.

Does not own: the values of collections (`SchemaCompiler.Yaml.Untyped`).
-/

namespace SchemaCompiler.Yaml

/-- The spellings of null, beside the empty plain scalar. -/
def isNullText (text : String) : Bool :=
  ["null", "Null", "NULL", "~"].contains text

def boolOfText? (text : String) : Option Bool :=
  if ["true", "True", "TRUE"].contains text then some true
  else if ["false", "False", "FALSE"].contains text then some false
  else none

/-! ## Integers -/

/-- A text without one leading plus sign; `none` when a second sign follows. -/
def withoutPlus? : List Char → Option (List Char)
  | '+' :: '+' :: _ => none
  | '+' :: '-' :: _ => none
  | '+' :: rest => some rest
  | text => some text

/-- True for several digits of which the first is zero, signed or not: such a
text is no number. -/
def hasLeadingZero (text : List Char) : Bool :=
  let unsigned :=
    match text with
    | '-' :: rest => rest
    | '+' :: rest => rest
    | rest => rest
  match unsigned with
  | '0' :: second :: rest => (second :: rest).all Char.isDigit
  | _ => false

/-- The number that digits of a base denote; there must be one at least. -/
def naturalOfBase? (base : Nat) (digits : List Char) : Option Nat :=
  if digits.isEmpty then none
  else
    digits.foldlM (fun total digit => do
      let value ← Json.hexValue? digit
      if value < base then some (base * total + value) else none) 0

/-- The magnitude of an integer text without sign. -/
def magnitude? (text : List Char) : Option Nat :=
  match text with
  | '0' :: 'x' :: digits => naturalOfBase? 16 digits
  | '0' :: 'o' :: digits => naturalOfBase? 8 digits
  | '0' :: 'b' :: digits => naturalOfBase? 2 digits
  | digits => if hasLeadingZero digits then none else naturalOfBase? 10 digits

def integerOfText? (text : List Char) : Option Int :=
  match text with
  | '-' :: rest => (magnitude? rest).map fun size => -(size : Int)
  | text => ((withoutPlus? text).bind magnitude?).map fun size => (size : Int)

/-- True for integers of the signed or the unsigned 128-bit range. -/
def inDoubleWordRange (value : Int) : Bool :=
  -(Int.pow 2 127) ≤ value ∧ value < Int.pow 2 128

/-! ## Floating point numbers -/

/-- A decimal as sign, coefficient and power of ten: an optional minus sign,
digits with an optional point among them, and an optional exponent. -/
def decimalOfText? (text : List Char) : Option (Bool × Nat × Int) := do
  let (negative, unsigned) :=
    match text with
    | '-' :: rest => (true, rest)
    | rest => (false, rest)
  let (whole, afterWhole) := Json.digitRun unsigned
  let (fraction, afterFraction) :=
    match afterWhole with
    | '.' :: rest => Json.digitRun rest
    | rest => ([], rest)
  if whole.isEmpty && fraction.isEmpty then none
  let (power, behind) ← Json.readExponent afterFraction
  if behind.isEmpty then
    some (negative, Json.naturalOfDigits (whole ++ fraction), power - fraction.length)
  else none

/-- The number that a text spells as a floating point number: `some none` for
the infinities and for the value that is no number, which have no dynamic
value, and `none` when the text spells none or is too large. -/
def floatOfText? (text : List Char) : Option (Option Binary64) := do
  let unsigned ← withoutPlus? text
  let word := String.ofList unsigned
  if [".inf", ".Inf", ".INF", "-.inf", "-.Inf", "-.INF"].contains word then some none
  else if [".nan", ".NaN", ".NAN"].contains (String.ofList text) then some none
  else
    let (negative, coefficient, power) ← decimalOfText? unsigned
    let value := Binary64.nearest negative coefficient power
    if value.isFinite then some (some value) else none

/-- A floating point number as a dynamic value. -/
def floatValue : Option Binary64 → Json
  | some value => .number (.float value)
  | none => .null

/-! ## Scalars -/

/-- What an integer text comes to: a value, or a fault when it fits no 64-bit
word. -/
def integerValue? (value : Int) : Option Json :=
  if Json.inWordRange value then some (.number (.integer value)) else none

/-- The value of a plain scalar without tag; an integer between 64 and 128 bits
is a fault. -/
def plainValue? (text : String) : Option Json :=
  if text = "" || isNullText text then some .null
  else
    match boolOfText? text with
    | some value => some (.bool value)
    | none =>
        let characters := text.toList
        match (integerOfText? characters).filter inDoubleWordRange with
        | some value => integerValue? value
        | none =>
            if hasLeadingZero characters then some (.string text)
            else
              match floatOfText? characters with
              | some value => some (floatValue value)
              | none => some (.string text)

/-- True when a node has a custom tag, which no value may have. -/
def isCustomTag (tag : TagName) : Bool :=
  (tag.map TagBytes.isCustom).getD false

/-- The value of a scalar whose tag says nothing about it: that of its spelling
when it is plain, and text otherwise. -/
def Scalar.spelledValue? (scalar : Scalar) : Option Json :=
  if scalar.style = .plain then plainValue? scalar.text else some (.string scalar.text)

/-- The value of a scalar; `none` for a fault. A local tag that is no text says
nothing, and any other unknown tag makes the scalar a text. -/
def Scalar.value? (scalar : Scalar) : Option Json :=
  match scalar.tag with
  | none => scalar.spelledValue?
  | some tag =>
      if tag.isCustom then none
      else if tag = .standard "bool" then (boolOfText? scalar.text).map Json.bool
      else if tag = .standard "int" then
        ((integerOfText? scalar.text.toList).filter inDoubleWordRange).bind integerValue?
      else if tag = .standard "float" then (floatOfText? scalar.text.toList).map floatValue
      else if tag = .standard "null" then
        if isNullText scalar.text then some .null else none
      else if tag.isLocal then scalar.spelledValue?
      else some (.string scalar.text)

end SchemaCompiler.Yaml
