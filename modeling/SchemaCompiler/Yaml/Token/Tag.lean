import SchemaCompiler.Yaml.Cursor
import SchemaCompiler.Yaml.Token.Basic
import SchemaCompiler.Json.Reader
import SchemaCompiler.Text.Utf8

/-!
Contract: directives, anchors and tags.

Owns:
- the reading of directive lines;
- the reading of anchor and alias names;
- the reading of tags, as a handle and the rest that belongs to it, with
  percent escapes undone.

Every reader gives `none` for a malformed text.

Does not own: what a handle stands for, which the directives of a document
decide.
-/

namespace SchemaCompiler.Yaml.Cursor

/-- The name of an anchor or alias, the cursor standing behind its indicator. -/
def anchorName? (cursor : Cursor) : Option (String × Cursor) :=
  let (name, behind) := cursor.run isWordCharacter
  let ended :=
    match behind.rest with
    | [] => true
    | next :: _ => startsBlank behind.rest || "?:,]\x7d%@\x60".toList.contains next
  if name.isEmpty || !ended then none else some (String.ofList name, behind)

/-- The characters of a tag beside word characters and escapes. -/
def isTagCharacter (verbatim : Bool) (character : Char) : Bool :=
  isWordCharacter character || ";/?:@&=+$.!~*'()".toList.contains character ||
    (verbatim && ",[]".toList.contains character)

/-- The byte written by a percent sign and two hexadecimal digits. -/
def escapedByte? : List Char → Option (UInt8 × List Char)
  | '%' :: high :: low :: rest => do
      let upper ← Json.hexValue? high
      let lower ← Json.hexValue? low
      return (UInt8.ofNat (upper * 16 + lower), rest)
  | _ => none

/-- The number of bytes in a sequence that begins with `lead`. -/
def sequenceWidth? (lead : UInt8) : Option Nat :=
  let byte := lead.toNat
  if byte < 0x80 then some 1
  else if 0xC0 ≤ byte ∧ byte < 0xE0 then some 2
  else if 0xE0 ≤ byte ∧ byte < 0xF0 then some 3
  else if 0xF0 ≤ byte ∧ byte < 0xF8 then some 4
  else none

/-- The continuation bytes of an escaped sequence. -/
def escapedTail? : Nat → List Char → Option (List UInt8 × List Char)
  | 0, text => some ([], text)
  | more + 1, text => do
      let (byte, rest) ← escapedByte? text
      if !Text.isContinuation byte then none
      let (bytes, behind) ← escapedTail? more rest
      return (byte :: bytes, behind)

def escapedSequence? (text : List Char) : Option (TagBytes × List Char) := do
  let (lead, rest) ← escapedByte? text
  let width ← sequenceWidth? lead
  let (tail, behind) ← escapedTail? (width - 1) rest
  return (lead :: tail, behind)

/-- The longest tag text from here, escapes undone and the bytes collected in
reverse. The fuel bounds its length. -/
def tagText? (verbatim : Bool) (fuel : Nat) (read : TagBytes) (text : List Char) :
    Option (TagBytes × List Char) :=
  match fuel with
  | 0 => none
  | fuel + 1 =>
      match text with
      | '%' :: _ =>
          match escapedSequence? text with
          | some (bytes, rest) => tagText? verbatim fuel (bytes.reverse ++ read) rest
          | none => none
      | character :: rest =>
          if isTagCharacter verbatim character then
            tagText? verbatim fuel ((String.utf8EncodeChar character).reverse ++ read) rest
          else some (read.reverse, text)
      | [] => some (read.reverse, [])

/-- The cursor moved on, inside its line, to where `rest` is left. -/
def movedTo (cursor : Cursor) (rest : List Char) : Cursor :=
  cursor.skip (cursor.rest.length - rest.length)

/-- A tag text, the cursor standing before it. -/
def tagText (cursor : Cursor) (verbatim : Bool) : Option (TagBytes × Cursor) := do
  let (text, rest) ← tagText? verbatim (cursor.bound + 1) [] cursor.rest
  return (text, cursor.movedTo rest)

/-- A tag handle: an exclamation mark, word characters, and a second mark where
there is one. -/
def tagHandle? (cursor : Cursor) : Option (List Char × Cursor) :=
  match cursor.rest with
  | '!' :: _ =>
      let (word, behind) := (cursor.skip 1).run isWordCharacter
      match behind.rest with
      | '!' :: _ => some ('!' :: word ++ ['!'], behind.skip 1)
      | _ => some ('!' :: word, behind)
  | _ => none

/-- A tag, the cursor standing before its exclamation mark. A tag in angle
brackets has no handle, and neither has the lone mark. -/
def tag? (cursor : Cursor) (inFlow : Bool) : Option (Token × Cursor) := do
  let (token, behind) ←
    match cursor.rest with
    | '!' :: '<' :: _ => do
        let (text, behind) ← (cursor.skip 2).tagText true
        match text, behind.rest with
        | _ :: _, '>' :: _ => some (Token.tag "" text.beforeZero, behind.skip 1)
        | _, _ => none
    | _ => do
        let (handle, behindHandle) ← cursor.tagHandle?
        let (text, behind) ← behindHandle.tagText false
        if 1 < handle.length ∧ handle.getLast? = some '!' then
          if text.isEmpty then none
          else some (Token.tag (String.ofList handle) text.beforeZero, behind)
        else
          match TagBytes.beforeZero (Text.utf8Bytes (handle.drop 1) ++ text) with
          | [] => some (Token.tag "" TagBytes.loneMark, behind)
          | rest => some (Token.tag "!" rest, behind)
  let ended :=
    startsBlank behind.rest || (inFlow && behind.rest.head? = some ',')
  if ended then some (token, behind) else none

def versionNumber? (cursor : Cursor) : Option (Nat × Cursor) :=
  let (digits, behind) := cursor.run Char.isDigit
  if digits.isEmpty || 9 < digits.length then none
  else some (Json.naturalOfDigits digits, behind)

def versionDirective? (cursor : Cursor) : Option (Token × Cursor) := do
  let (major, behind) ← (cursor.run isBlank).2.versionNumber?
  match behind.rest with
  | '.' :: _ =>
      let (minor, behind) ← (behind.skip 1).versionNumber?
      return (.versionDirective major minor, behind)
  | _ => none

/-- The handle and the text that a tag directive pairs. -/
def tagDirective? (cursor : Cursor) : Option (Token × Cursor) := do
  let (handle, behindHandle) ← (cursor.run isBlank).2.tagHandle?
  if handle ≠ ['!'] ∧ ¬(1 < handle.length ∧ handle.getLast? = some '!') then none
  let (blanks, beforeText) := behindHandle.run isBlank
  if blanks.isEmpty then none
  let (text, behind) ← beforeText.tagText true
  if text.isEmpty || !startsBlank behind.rest then none
  return (.tagDirective (String.ofList handle) text.beforeZero, behind)

/-- A directive line, the cursor standing before its percent sign. -/
def directive? (cursor : Cursor) : Option (Token × Cursor) := do
  let (name, behindName) := (cursor.skip 1).run isWordCharacter
  if name.isEmpty || !startsBlank behindName.rest then none
  let (token, behind) ←
    if name = "YAML".toList then behindName.versionDirective?
    else if name = "TAG".toList then behindName.tagDirective?
    else none
  let behind ← behind.skipComment?
  return (token, behind.skipBreak)

end SchemaCompiler.Yaml.Cursor
