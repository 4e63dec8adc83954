import SchemaCompiler.Yaml.Resolution
import SchemaCompiler.Json.Text

/-!
Contract: dynamic values written as block YAML.

Owns:
- the choice among the plain, single-quoted, double-quoted and literal forms of
  a text: the first one that reads back as that text, several lines being
  written literally where that is possible;
- the layout: two spaces per level, sequences inside mappings not indented, and
  brackets for empty collections;
- `Json.blockYaml`.

Lines are never folded, whatever their length. Keys are taken to be plain.

Does not own: reading the text back.
-/

namespace SchemaCompiler.Yaml

/-- The characters that are written as they stand. -/
def isPrintable (character : Char) : Bool :=
  let code := character.toNat
  code = 0x0A || (0x20 ≤ code && code ≤ 0x7E) || (0xA0 ≤ code && code ≤ 0xD7FF) ||
    (0xE000 ≤ code && code ≤ 0xFFFD && code ≠ 0xFEFF) || 0x10000 ≤ code

/-- A blank, a line break, or the zero character. -/
def isSpacing (character : Char) : Bool :=
  isBlank character || isBreak character || character.toNat = 0

/-- True at the end of a text and before spacing. -/
def startsSpacing : List Char → Bool
  | [] => true
  | character :: _ => isSpacing character

/-- True when a plain text may not begin like this. -/
def opensIndicator : List Char → Bool
  | [] => false
  | character :: rest =>
      "#,[]\x7b\x7d&*!|>'\"%@\x60".toList.contains character ||
        ("?:-".toList.contains character && startsSpacing rest)

/-- True when a colon that ends a key, or a number sign that begins a comment,
stands behind the first character. -/
def holdsIndicator (previous : Char) : List Char → Bool
  | [] => false
  | character :: rest =>
      (character = ':' && startsSpacing rest) || (character = '#' && isSpacing previous) ||
        holdsIndicator character rest

/-- True when a text begins like a document marker. -/
def opensMarker (text : List Char) : Bool :=
  ['-', '-', '-'].isPrefixOf text || ['.', '.', '.'].isPrefixOf text

/-- True when a text cannot stand plain for reasons of its characters. -/
def hasIndicator (text : List Char) : Bool :=
  match text with
  | [] => false
  | first :: rest => opensMarker text || opensIndicator text || holdsIndicator first rest

/-- True when a character with one property is directly followed by one with
another. -/
def hasNeighbours (left right : Char → Bool) : List Char → Bool
  | first :: second :: rest =>
      (left first && right second) || hasNeighbours left right (second :: rest)
  | _ => false

/-- True when a text begins or ends with a character of some kind. -/
def hasEdge (kind : Char → Bool) (text : List Char) : Bool :=
  (text.head?.map kind).getD false || (text.getLast?.map kind).getD false

/-- A space; tabs are escaped instead. -/
def isSpace (character : Char) : Bool := character = ' '

/-- True when a text needs the escapes of the double-quoted form. -/
def needsEscapes (text : List Char) : Bool :=
  !text.all isPrintable || hasNeighbours isSpace isBreak text

/-- The forms of a text. -/
inductive WrittenStyle where
  | plain
  | single
  | double
  | literal
deriving DecidableEq, Repr

/-- True when a plain scalar with this text would not read back as text. -/
def readsAsOther (text : String) : Bool :=
  text = "" || isNullText text || (boolOfText? text).isSome || hasLeadingZero text.toList ||
    ((integerOfText? text.toList).filter inDoubleWordRange).isSome ||
    (floatOfText? text.toList).isSome

/-- The quoted form of a text: single quotes unless it needs escapes or a line
of it would begin with a space. -/
def quotedStyle (text : List Char) : WrittenStyle :=
  if needsEscapes text || hasNeighbours isBreak isSpace text then .double else .single

/-- The form a text is written in. -/
def writtenStyle (text : String) : WrittenStyle :=
  let characters := text.toList
  if characters.contains '\n' then
    if needsEscapes characters || characters.getLast? = some ' ' then .double else .literal
  else if readsAsOther text then quotedStyle characters
  else if needsEscapes characters || characters.any isBreak || hasEdge isSpace characters ||
      hasIndicator characters then quotedStyle characters
  else .plain

/-! ## The forms -/

/-- `count` spaces. -/
def spaces (count : Nat) : List Char := List.replicate count ' '

/-- The upper-case hexadecimal digits of a number, `width` of them. -/
def hexDigits (width value : Nat) : List Char :=
  (List.range width).reverse.map fun place =>
    (Nat.digitChar (value / Nat.pow 16 place % 16)).toUpper

/-- The escape of a character in the double-quoted form. -/
def escapedCharacter (character : Char) : List Char :=
  let letter : Option Char :=
    match character.toNat with
    | 0x00 => some '0'
    | 0x07 => some 'a'
    | 0x08 => some 'b'
    | 0x09 => some 't'
    | 0x0A => some 'n'
    | 0x0B => some 'v'
    | 0x0C => some 'f'
    | 0x0D => some 'r'
    | 0x1B => some 'e'
    | 0x22 => some '"'
    | 0x5C => some '\\'
    | 0x85 => some 'N'
    | 0xA0 => some '_'
    | 0x2028 => some 'L'
    | 0x2029 => some 'P'
    | _ => none
  match letter with
  | some short => ['\\', short]
  | none =>
      if character.toNat ≤ 0xFF then '\\' :: 'x' :: hexDigits 2 character.toNat
      else if character.toNat ≤ 0xFFFF then '\\' :: 'u' :: hexDigits 4 character.toNat
      else '\\' :: 'U' :: hexDigits 8 character.toNat

def doubleQuoted (text : List Char) : List Char :=
  '"' :: (text.flatMap fun character =>
    if !isPrintable character || isBreak character || character = '"' || character = '\\' then
      escapedCharacter character
    else [character]) ++ ['"']

/-- The content of the single-quoted form: quotes are doubled, and what follows
a line break is indented. -/
def singleContent (indent : Nat) (broken : Bool) : List Char → List Char
  | [] => if broken then spaces indent else []
  | character :: rest =>
      if isBreak character then character :: singleContent indent true rest
      else
        (if broken && !isSpace character then spaces indent else []) ++
          (if character = '\'' then ['\'', '\''] else [character]) ++
          singleContent indent (broken && isSpace character) rest

def singleQuoted (indent : Nat) (text : List Char) : List Char :=
  '\'' :: singleContent indent false text ++ ['\'']

/-- The lines of the literal form; lines without text are not indented. -/
def literalContent (indent : Nat) (fresh : Bool) : List Char → List Char
  | [] => []
  | character :: rest =>
      if isBreak character then character :: literalContent indent true rest
      else
        (if fresh then spaces indent else []) ++
          character :: literalContent indent false rest

/-- The header of the literal form: the indentation when the text begins with
spacing, and the chomping of its last breaks. -/
def literalHeader (text : List Char) : List Char :=
  let indentation :=
    if (text.head?.map fun first => isSpace first || isBreak first).getD false then ['2'] else []
  let chomping :=
    match text.reverse with
    | [] => ['-']
    | last :: before =>
        if !isBreak last then ['-']
        else
          match before with
          | [] => ['+']
          | previous :: _ => if isBreak previous then ['+'] else []
  '|' :: indentation ++ chomping

/-- The literal form. A text that ends with a line break ends its last line. -/
def literalForm (indent : Nat) (text : List Char) : List Char :=
  literalHeader text ++ '\n' :: literalContent indent true text

/-- A text inside a collection, with `indent` spaces before its further lines. -/
def writtenText (indent : Nat) (text : String) : List Char :=
  let characters := text.toList
  match writtenStyle text with
  | .plain => characters
  | .single => singleQuoted indent characters
  | .double => doubleQuoted characters
  | .literal => literalForm indent characters

end SchemaCompiler.Yaml

namespace SchemaCompiler.Json

open Yaml

/-- A value that is written on the line it begins on. -/
def inlineYaml (indent : Nat) : Json → List Char
  | .string text => writtenText indent text
  | other => compactChars other

/-- Ends the line, unless the break at the end of a literal text has ended it. -/
def endLine (line : List Char) : List Char :=
  if (line.getLast?.map isBreak).getD false then line else line ++ ['\n']

mutual

/-- The items of a sequence. The first line of each begins behind a dash. -/
def blockItems (indent : Nat) : List Json → List Char
  | [] => []
  | item :: rest =>
      spaces indent ++ '-' :: ' ' :: blockContent (indent + 2) item ++ blockItems indent rest

/-- A value behind a dash; the place of its first line is already reached. -/
def blockContent (indent : Nat) : Json → List Char
  | .object ((key, value) :: rest) =>
      key.toList ++ ':' :: blockValue indent value ++ blockEntries indent rest
  | .array (item :: rest) =>
      '-' :: ' ' :: blockContent (indent + 2) item ++ blockItems indent rest
  | .object [] => endLine (inlineYaml indent (.object []))
  | .array [] => endLine (inlineYaml indent (.array []))
  | .null => endLine (inlineYaml indent .null)
  | .bool value => endLine (inlineYaml indent (.bool value))
  | .number value => endLine (inlineYaml indent (.number value))
  | .string text => endLine (inlineYaml indent (.string text))

/-- The entries of a mapping, each on lines of its own. -/
def blockEntries (indent : Nat) : List (String × Json) → List Char
  | [] => []
  | (key, value) :: rest =>
      spaces indent ++ key.toList ++ ':' :: blockValue indent value ++ blockEntries indent rest

/-- The value of a mapping entry behind its colon. -/
def blockValue (indent : Nat) : Json → List Char
  | .object ((key, value) :: rest) =>
      '\n' :: spaces (indent + 2) ++ key.toList ++ ':' :: blockValue (indent + 2) value ++
        blockEntries (indent + 2) rest
  | .array (item :: rest) =>
      '\n' :: spaces indent ++ '-' :: ' ' :: blockContent (indent + 2) item ++
        blockItems indent rest
  | .object [] => ' ' :: endLine (inlineYaml (indent + 2) (.object []))
  | .array [] => ' ' :: endLine (inlineYaml (indent + 2) (.array []))
  | .null => ' ' :: endLine (inlineYaml (indent + 2) .null)
  | .bool value => ' ' :: endLine (inlineYaml (indent + 2) (.bool value))
  | .number value => ' ' :: endLine (inlineYaml (indent + 2) (.number value))
  | .string text => ' ' :: endLine (inlineYaml (indent + 2) (.string text))

end

def blockYaml (value : Json) : String :=
  String.ofList (blockContent 0 value)

end SchemaCompiler.Json
