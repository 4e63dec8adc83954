/-!
Contract: reading positions in a YAML text.

Owns:
- the character classes of the format: line breaks, blanks, word characters, and
  the characters a text may hold at all;
- `Cursor`, the characters still to be read with their offset, line and column;
- `Cursor.gap`, a run of blanks and line breaks, and `foldedGap`, the text it
  leaves inside a scalar.

Does not own: tokens.
-/

namespace SchemaCompiler.Yaml

def isBreak (character : Char) : Bool :=
  character = '\n' || character = '\r' || character = '\u0085' || character = '\u2028' ||
    character = '\u2029'

def isBlank (character : Char) : Bool :=
  character = ' ' || character = '\t'

/-- The characters of anchor names, directive names and tag handles. -/
def isWordCharacter (character : Char) : Bool :=
  character.isAlphanum || character = '_' || character = '-'

/-- The characters a text may hold. -/
def isReadable (character : Char) : Bool :=
  let code := character.toNat
  code = 0x09 || code = 0x0A || code = 0x0D || (0x20 ≤ code && code ≤ 0x7E) || code = 0x85 ||
    (0xA0 ≤ code && code ≤ 0xD7FF) || (0xE000 ≤ code && code ≤ 0xFFFD) || 0x10000 ≤ code

/-- The byte order mark. -/
def orderMark : Char := '\ufeff'

/-- The characters of a text, when all of them are readable. -/
def readableCharacters? (text : String) : Option (List Char) :=
  if text.toList.all isReadable then some text.toList else none

/-- True at the end of the text and before a blank or a line break. -/
def startsBlank : List Char → Bool
  | [] => true
  | character :: _ => isBlank character || isBreak character

/-- True at the end of the text and before a line break. -/
def startsBreak : List Char → Bool
  | [] => true
  | character :: _ => isBreak character

/-- The character a line break contributes to a scalar: every break of the
common kinds is one line feed. -/
def normalBreak (character : Char) : Char :=
  if character = '\u2028' ∨ character = '\u2029' then character else '\n'

/-- The number of bytes that a text takes up. -/
def byteCount (text : List Char) : Nat :=
  text.foldl (fun count character => count + character.utf8Size) 0

/-- The characters still to be read, and the place of the first of them: the
bytes in front of it, its line, and the characters in front of it on the line. -/
structure Cursor where
  rest : List Char
  offset : Nat := 0
  line : Nat := 0
  column : Nat := 0
  /-- The number of characters of the whole text, which bounds all runs of steps
  through it. -/
  bound : Nat := rest.length

namespace Cursor

/-- Passes over `count` characters of the current line. -/
def skip (cursor : Cursor) (count : Nat) : Cursor :=
  { cursor with
    rest := cursor.rest.drop count
    offset := cursor.offset + byteCount (cursor.rest.take count)
    column := cursor.column + count }

/-- The beginning of the line behind the current one, or the cursor itself when
it stands at the beginning of a line. -/
def onFreshLine (cursor : Cursor) : Cursor :=
  if cursor.column = 0 then cursor else { cursor with line := cursor.line + 1, column := 0 }

/-- The longest run of characters with a property that no line break has, and
the cursor behind it. -/
def run (cursor : Cursor) (keep : Char → Bool) : List Char × Cursor :=
  let (taken, rest) := cursor.rest.span keep
  (taken, { cursor with
    rest := rest
    offset := cursor.offset + byteCount taken
    column := cursor.column + taken.length })

/-- Passes over a byte order mark at the beginning of a line. -/
def skipOrderMark (cursor : Cursor) : Cursor :=
  if cursor.column = 0 ∧ cursor.rest.head? = some orderMark then cursor.skip 1 else cursor

/-- Passes over one line break, if the cursor stands before one. -/
def skipBreak (cursor : Cursor) : Cursor :=
  match cursor.rest with
  | '\r' :: '\n' :: rest =>
      { cursor with
        rest := rest, offset := cursor.offset + 2, line := cursor.line + 1, column := 0 }
  | character :: rest =>
      if isBreak character then
        { cursor with
          rest := rest
          offset := cursor.offset + character.utf8Size
          line := cursor.line + 1
          column := 0 }
      else cursor
  | [] => cursor

/-- The normalized line break the cursor stands before, none when there is no
break, and the cursor behind it. -/
def readBreak (cursor : Cursor) : List Char × Cursor :=
  match cursor.rest with
  | character :: _ =>
      if isBreak character then ([normalBreak character], cursor.skipBreak) else ([], cursor)
  | [] => ([], cursor)

/-- Passes over the rest of a line up to its break when it holds nothing but
blanks and a comment. -/
def skipComment? (cursor : Cursor) : Option Cursor :=
  let (_, behind) := cursor.run isBlank
  let behind :=
    match behind.rest with
    | '#' :: _ => (behind.run fun character => !isBreak character).2
    | _ => behind
  if startsBreak behind.rest then some behind else none

/-- True before a marker of document start or end, which only counts at the
beginning of a line. -/
def atDocumentMarker (cursor : Cursor) : Bool :=
  cursor.column = 0 &&
    match cursor.rest with
    | '-' :: '-' :: '-' :: rest => startsBlank rest
    | '.' :: '.' :: '.' :: rest => startsBlank rest
    | _ => false

/-- The gap read from the given characters, put behind what was read before in
reverse. -/
def gapFrom (bound : Nat) (read : List Char) (offset line column : Nat) :
    List Char → List Char × Cursor
  | [] => (read.reverse, ⟨[], offset, line, column, bound⟩)
  | '\r' :: '\n' :: rest => gapFrom bound ('\n' :: read) (offset + 2) (line + 1) 0 rest
  | character :: rest =>
      if isBlank character then
        gapFrom bound (character :: read) (offset + 1) line (column + 1) rest
      else if isBreak character then
        gapFrom bound (normalBreak character :: read) (offset + character.utf8Size) (line + 1) 0
          rest
      else (read.reverse, ⟨character :: rest, offset, line, column, bound⟩)

/-- The longest run of blanks and line breaks, each break normalized, and the
cursor behind it. -/
def gap (cursor : Cursor) : List Char × Cursor :=
  gapFrom cursor.bound [] cursor.offset cursor.line cursor.column cursor.rest

end Cursor

/-- The text that a gap leaves inside a scalar: blanks alone stay, a single line
feed becomes a space, and further breaks behind it stay; blanks beside a break
go. -/
def foldedGap (gap : List Char) : List Char :=
  match gap.filter isBreak with
  | [] => gap
  | ['\n'] => [' ']
  | '\n' :: more => more
  | breaks => breaks

end SchemaCompiler.Yaml
