import SchemaCompiler.Json.Basic
import SchemaCompiler.Decimal.Shortest

/-!
Contract: the written forms of dynamic values.

Owns:
- string literals: `Json.quoted` and the escape of one character;
- the one-line form `Json.compact` and the indented form `Json.pretty`;
- the layout of number texts.

Does not own: reading the text back (`SchemaCompiler.Json.Reader`).
-/

namespace SchemaCompiler

namespace Json

/-- Numbers are positional from `0.00001` to `1000000000000000.0`. -/
def notation64 : DecimalNotation := ⟨-5, 15⟩

/-- The lower-case hexadecimal digit of a number below sixteen. -/
def hexDigit (value : Nat) : Char :=
  Nat.digitChar value

/-- The characters that stand for `character` between the quotes of a literal.
Only the quote, the backslash and the controls below U+0020 are escaped. -/
def escaped (character : Char) : List Char :=
  if character = '"' then ['\\', '"']
  else if character = '\\' then ['\\', '\\']
  else if character = '\x08' then ['\\', 'b']
  else if character = '\x0c' then ['\\', 'f']
  else if character = '\n' then ['\\', 'n']
  else if character = '\r' then ['\\', 'r']
  else if character = '\t' then ['\\', 't']
  else if character.toNat < 0x20 then
    ['\\', 'u', '0', '0', hexDigit (character.toNat / 16), hexDigit (character.toNat % 16)]
  else [character]

def quotedChars (text : List Char) : List Char :=
  '"' :: text.flatMap escaped ++ ['"']

def quoted (text : String) : String :=
  String.ofList (quotedChars text.toList)

def Number.chars : Number → List Char
  | .integer value => (toString value).toList
  | .float value => notation64.render value

mutual

/-- The one-line form, without any space. -/
def compactChars : Json → List Char
  | .null => "null".toList
  | .bool value => if value then "true".toList else "false".toList
  | .number value => value.chars
  | .string text => quotedChars text.toList
  | .array items => '[' :: compactItems items ++ [']']
  | .object entries => '{' :: compactEntries entries ++ ['}']

def compactItems : List Json → List Char
  | [] => []
  | item :: rest =>
      compactChars item ++
        (match rest with
         | [] => []
         | next :: others => ',' :: compactItems (next :: others))

/-- Entries separated by commas, each key parted from its value by a colon. -/
def compactEntries : List (String × Json) → List Char
  | [] => []
  | (key, value) :: rest =>
      quotedChars key.toList ++ ':' :: compactChars value ++
        (match rest with
         | [] => []
         | next :: others => ',' :: compactEntries (next :: others))

end

def compact (value : Json) : String :=
  String.ofList (compactChars value)

/-- A line break followed by two spaces per level of nesting. -/
def lineBreak (depth : Nat) : List Char :=
  '\n' :: List.replicate (2 * depth) ' '

mutual

/-- The indented form: two spaces per level, and nothing between the brackets
of an empty collection. -/
def prettyChars (depth : Nat) : Json → List Char
  | .array [] => ['[', ']']
  | .array (item :: rest) =>
      '[' :: lineBreak (depth + 1) ++ prettyItems (depth + 1) (item :: rest) ++
        lineBreak depth ++ [']']
  | .object [] => ['{', '}']
  | .object (entry :: rest) =>
      '{' :: lineBreak (depth + 1) ++ prettyEntries (depth + 1) (entry :: rest) ++
        lineBreak depth ++ ['}']
  | .null => "null".toList
  | .bool value => if value then "true".toList else "false".toList
  | .number value => value.chars
  | .string text => quotedChars text.toList

def prettyItems (depth : Nat) : List Json → List Char
  | [] => []
  | item :: rest =>
      prettyChars depth item ++
        (match rest with
         | [] => []
         | next :: others => ',' :: lineBreak depth ++ prettyItems depth (next :: others))

def prettyEntries (depth : Nat) : List (String × Json) → List Char
  | [] => []
  | (key, value) :: rest =>
      quotedChars key.toList ++ ':' :: ' ' :: prettyChars depth value ++
        (match rest with
         | [] => []
         | next :: others => ',' :: lineBreak depth ++ prettyEntries depth (next :: others))

end

def pretty (value : Json) : String :=
  String.ofList (prettyChars 0 value)

/-- A scalar as bare text: a string without its quotes and null as nothing.
Collections are given in one-line form. -/
def scalarText : Json → String
  | .string text => text
  | .null => ""
  | other => other.compact

end Json

end SchemaCompiler
