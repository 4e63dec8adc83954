import SchemaCompiler.Json.Basic

/-!
Contract: reading dynamic values from their text form.

Owns:
- `Json.parse`, which accepts one value surrounded by blanks and nothing else;
- the reading of numbers: an integer of the 64-bit ranges written without point
  and exponent stays an integer, any other number is the nearest binary64;
- the reading of string literals, with every escape.

A repeated key keeps its first position and its last value. Reading never
fails half way with a value: the answer is `none` for every malformed text.

Does not own: writing (`SchemaCompiler.Json.Text`).
-/

namespace SchemaCompiler

namespace Json

/-- The blanks allowed between the parts of a value. -/
def isBlank (character : Char) : Bool :=
  character = ' ' || character = '\n' || character = '\r' || character = '\t'

def skipBlanks (text : List Char) : List Char :=
  text.dropWhile isBlank

def hexValue? (character : Char) : Option Nat :=
  if '0' ≤ character ∧ character ≤ '9' then some (character.toNat - '0'.toNat)
  else if 'a' ≤ character ∧ character ≤ 'f' then some (character.toNat - 'a'.toNat + 10)
  else if 'A' ≤ character ∧ character ≤ 'F' then some (character.toNat - 'A'.toNat + 10)
  else none

/-- The number written by four hexadecimal digits. -/
def hexQuad? (a b c d : Char) : Option Nat := do
  let high ← hexValue? a
  let upper ← hexValue? b
  let lower ← hexValue? c
  let low ← hexValue? d
  return ((high * 16 + upper) * 16 + lower) * 16 + low

def unescape? (character : Char) : Option Char :=
  match character with
  | '"' => some '"'
  | '\\' => some '\\'
  | '/' => some '/'
  | 'b' => some '\x08'
  | 'f' => some '\x0c'
  | 'n' => some '\n'
  | 'r' => some '\r'
  | 't' => some '\t'
  | _ => none

def pairedSurrogate (high low : Nat) : Char :=
  Char.ofNat (0x10000 + (high - 0xD800) * 0x400 + (low - 0xDC00))

/-- The rest of a string literal: its content up to the closing quote, and the
text behind it. -/
def readString : List Char → Option (List Char × List Char)
  | [] => none
  | '"' :: rest => some ([], rest)
  | '\\' :: 'u' :: a :: b :: c :: d :: '\\' :: 'u' :: e :: f :: g :: h :: rest =>
      match hexQuad? a b c d, hexQuad? e f g h with
      | some first, some second =>
          if 0xD800 ≤ first ∧ first < 0xDC00 then
            if 0xDC00 ≤ second ∧ second < 0xE000 then
              (readString rest).map fun (content, after) =>
                (pairedSurrogate first second :: content, after)
            else none
          else if 0xDC00 ≤ first ∧ first < 0xE000 then none
          else
            (readString ('\\' :: 'u' :: e :: f :: g :: h :: rest)).map fun (content, after) =>
              (Char.ofNat first :: content, after)
      | _, _ => none
  | '\\' :: 'u' :: a :: b :: c :: d :: rest =>
      match hexQuad? a b c d with
      | some code =>
          if 0xD800 ≤ code ∧ code < 0xE000 then none
          else (readString rest).map fun (content, after) => (Char.ofNat code :: content, after)
      | none => none
  | '\\' :: letter :: rest =>
      match unescape? letter with
      | some character =>
          (readString rest).map fun (content, after) => (character :: content, after)
      | none => none
  | character :: rest =>
      if character = '\\' ∨ character.toNat < 0x20 then none
      else (readString rest).map fun (content, after) => (character :: content, after)

/-- The longest run of decimal digits and what follows it. -/
def digitRun (text : List Char) : List Char × List Char :=
  text.span Char.isDigit

def naturalOfDigits (digits : List Char) : Nat :=
  digits.foldl (fun total digit => 10 * total + (digit.toNat - '0'.toNat)) 0

/-- An exponent, zero when none is written. -/
def readExponent (text : List Char) : Option (Int × List Char) :=
  match text with
  | mark :: rest =>
      if mark = 'e' ∨ mark = 'E' then
        let (negative, unsigned) :=
          match rest with
          | '+' :: digits => (false, digits)
          | '-' :: digits => (true, digits)
          | digits => (false, digits)
        let (digits, after) := digitRun unsigned
        if digits.isEmpty then none
        else
          let size : Int := naturalOfDigits digits
          some (if negative then -size else size, after)
      else some (0, text)
  | [] => some (0, [])

/-- True for integers of the signed or the unsigned 64-bit range. -/
def inWordRange (value : Int) : Bool :=
  -(Int.pow 2 63) ≤ value ∧ value < Int.pow 2 64

/-- A sign, true for a minus. -/
def readSign (text : List Char) : Bool × List Char :=
  match text with
  | '-' :: rest => (true, rest)
  | rest => (false, rest)

/-- The digits behind a point, if a point is there; it must be followed by one. -/
def readFraction (text : List Char) : Option (Option (List Char) × List Char) :=
  match text with
  | '.' :: rest =>
      let (digits, after) := digitRun rest
      if digits.isEmpty then none else some (some digits, after)
  | rest => some (none, rest)

/-- A number: an optional sign, digits without a leading zero, an optional
fraction, and an optional exponent. -/
def readNumber (text : List Char) : Option (Number × List Char) := do
  let (negative, unsigned) := readSign text
  let (whole, afterWhole) := digitRun unsigned
  if whole.isEmpty ∨ (whole.head? = some '0' ∧ 1 < whole.length) then none
  else
    let (fraction, afterFraction) ← readFraction afterWhole
    let (power, after) ← readExponent afterFraction
    let digits := fraction.getD []
    let coefficient := naturalOfDigits (whole ++ digits)
    let exact : Int := if negative then -(coefficient : Int) else coefficient
    if fraction.isNone ∧ after = afterFraction ∧ inWordRange exact then
      return (.integer exact, after)
    else
      return (.float (.nearest negative coefficient (power - digits.length)), after)

mutual

/-- One value and the text behind it. The fuel bounds the nesting. -/
def readValue (fuel : Nat) (text : List Char) : Option (Json × List Char) :=
  match fuel with
  | 0 => none
  | fuel + 1 =>
      match skipBlanks text with
      | '{' :: rest =>
          match skipBlanks rest with
          | '}' :: after => some (.object [], after)
          | inner => (readEntries fuel inner []).map fun (entries, after) =>
              (.object entries, after)
      | '[' :: rest =>
          match skipBlanks rest with
          | ']' :: after => some (.array [], after)
          | inner => (readItems fuel inner).map fun (items, after) => (.array items, after)
      | '"' :: rest => (readString rest).map fun (content, after) =>
          (.string (String.ofList content), after)
      | 'n' :: 'u' :: 'l' :: 'l' :: after => some (.null, after)
      | 't' :: 'r' :: 'u' :: 'e' :: after => some (.bool true, after)
      | 'f' :: 'a' :: 'l' :: 's' :: 'e' :: after => some (.bool false, after)
      | other => (readNumber other).map fun (numeral, after) => (.number numeral, after)

/-- The items of a list up to its closing bracket. -/
def readItems (fuel : Nat) (text : List Char) : Option (List Json × List Char) :=
  match fuel with
  | 0 => none
  | fuel + 1 =>
      match readValue fuel text with
      | none => none
      | some (item, after) =>
          match skipBlanks after with
          | ',' :: rest => (readItems fuel rest).map fun (items, remaining) =>
              (item :: items, remaining)
          | ']' :: remaining => some ([item], remaining)
          | _ => none

/-- The entries of a mapping up to its closing bracket, added to those read
before. -/
def readEntries (fuel : Nat) (text : List Char) (entries : Entries Json) :
    Option (Entries Json × List Char) :=
  match fuel with
  | 0 => none
  | fuel + 1 =>
      match skipBlanks text with
      | '"' :: rest =>
          match readString rest with
          | none => none
          | some (key, afterKey) =>
              match skipBlanks afterKey with
              | ':' :: afterColon =>
                  match readValue fuel afterColon with
                  | none => none
                  | some (value, after) =>
                      let extended := entries.insert (String.ofList key) value
                      match skipBlanks after with
                      | ',' :: remaining => readEntries fuel remaining extended
                      | '}' :: remaining => some (extended, remaining)
                      | _ => none
              | _ => none
      | _ => none

end

/-- The value that a whole text denotes. Each level of recursion reads at least
one character, so the length of the text bounds the depth. -/
def parse (text : String) : Option Json :=
  let characters := text.toList
  match readValue (2 * characters.length + 2) characters with
  | some (value, rest) => if (skipBlanks rest).isEmpty then some value else none
  | none => none

end Json

end SchemaCompiler
