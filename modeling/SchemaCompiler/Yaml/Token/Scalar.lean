import SchemaCompiler.Yaml.Token.Tag

/-!
Contract: the texts of scalars.

Owns:
- quoted scalars, with their escapes and folded lines;
- plain scalars, which end at the indicators of their context;
- block scalars, with their indentation, folding and chomping.

Texts are collected in reverse. Every reader gives `none` for a malformed text.

Does not own: which type a plain scalar has (`SchemaCompiler.Yaml.Resolution`).
-/

namespace SchemaCompiler.Yaml.Cursor

/-! ## Quoted scalars -/

/-- What ends a stretch of a quoted scalar that holds no blank. -/
inductive StretchEnd where
  | closed
  | gap
  | escapedBreak
deriving DecidableEq

/-- The character a short escape of a double-quoted scalar stands for. -/
def shortEscape? (letter : Char) : Option Char :=
  match letter with
  | '0' => some (Char.ofNat 0)
  | 'a' => some '\x07'
  | 'b' => some '\x08'
  | 't' | '\t' => some '\t'
  | 'n' => some '\n'
  | 'v' => some '\x0b'
  | 'f' => some '\x0c'
  | 'r' => some '\r'
  | 'e' => some '\x1b'
  | ' ' => some ' '
  | '"' => some '"'
  | '/' => some '/'
  | '\\' => some '\\'
  | 'N' => some '\u0085'
  | '_' => some '\u00a0'
  | 'L' => some '\u2028'
  | 'P' => some '\u2029'
  | _ => none

/-- The number of hexadecimal digits behind the letter of a numeric escape. -/
def escapeWidth? (letter : Char) : Option Nat :=
  match letter with
  | 'x' => some 2
  | 'u' => some 4
  | 'U' => some 8
  | _ => none

/-- The character with a given code, surrogates and larger codes excluded. -/
def characterOfCode? (code : Nat) : Option Char :=
  if code < 0xD800 ∨ (0xDFFF < code ∧ code ≤ 0x10FFFF) then some (Char.ofNat code) else none

/-- The character that an escape stands for, and the number of characters it
takes up with its backslash. -/
def escape? (letter : Char) (rest : List Char) : Option (Char × Nat) :=
  match escapeWidth? letter with
  | some width => do
      let digits ← (rest.take width).mapM Json.hexValue?
      if digits.length ≠ width then none
      let character ← characterOfCode? (digits.foldl (fun code digit => 16 * code + digit) 0)
      return (character, width + 2)
  | none => (shortEscape? letter).map fun character => (character, 2)

/-- Reads up to a blank, a line break or the closing quote. -/
def quotedStretch (single : Bool) (fuel : Nat) (cursor : Cursor) (read : List Char) :
    Option (StretchEnd × Cursor × List Char) :=
  match fuel with
  | 0 => none
  | fuel + 1 =>
      match single, cursor.rest with
      | true, '\'' :: '\'' :: _ => quotedStretch single fuel (cursor.skip 2) ('\'' :: read)
      | true, '\'' :: _ => some (.closed, cursor, read)
      | false, '"' :: _ => some (.closed, cursor, read)
      | false, '\\' :: letter :: rest =>
          if isBreak letter then some (.escapedBreak, (cursor.skip 1).skipBreak, read)
          else
            match escape? letter rest with
            | some (character, width) =>
                quotedStretch single fuel (cursor.skip width) (character :: read)
            | none => none
      | false, ['\\'] => none
      | _, character :: _ =>
          if isBlank character || isBreak character then some (.gap, cursor, read)
          else quotedStretch single fuel (cursor.skip 1) (character :: read)
      | _, [] => some (.gap, cursor, read)

/-- The content of a quoted scalar up to and with its closing quote. Lines are
folded; an escaped line break leaves nothing but the breaks behind it. -/
def quotedContent (single : Bool) (fuel : Nat) (cursor : Cursor) (read : List Char) :
    Option (List Char × Cursor) :=
  match fuel with
  | 0 => none
  | fuel + 1 =>
      if cursor.atDocumentMarker || cursor.rest.isEmpty then none
      else
        match quotedStretch single (cursor.bound + 1) cursor read with
        | none => none
        | some (.closed, behind, content) => some (content.reverse, behind.skip 1)
        | some (.gap, behind, content) =>
            let (gap, next) := behind.gap
            quotedContent single fuel next ((foldedGap gap).reverse ++ content)
        | some (.escapedBreak, behind, content) =>
            match single, behind.rest with
            | false, '"' :: _ => some (content.reverse, behind.skip 1)
            | _, _ =>
                let (gap, next) := behind.gap
                quotedContent single fuel next ((gap.filter isBreak).reverse ++ content)

/-- A quoted scalar, the cursor standing before its opening quote. -/
def quotedScalar? (cursor : Cursor) (single : Bool) : Option (List Char × Cursor) :=
  quotedContent single (cursor.bound + 1) (cursor.skip 1) []

/-! ## Plain scalars -/

/-- The characters that end a plain scalar inside a flow collection. -/
def isFlowIndicator (character : Char) : Bool :=
  ",[]\x7b\x7d".toList.contains character

/-- True where a plain scalar ends: at the end of a word, before a colon that
ends a key, and inside flow collections before their indicators. -/
def endsPlain (inFlow : Bool) : List Char → Bool
  | [] => true
  | ':' :: rest => startsBlank rest
  | character :: _ =>
      isBlank character || isBreak character || (inFlow && isFlowIndicator character)

/-- True before a colon that touches an indicator of a flow collection. -/
def misplacedColon : List Char → Bool
  | ':' :: next :: _ => isFlowIndicator next || next = '?'
  | _ => false

/-- Reads the characters of a plain scalar up to where it ends. -/
def plainStretch (inFlow : Bool) (cursor : Cursor) (read : List Char) :
    List Char → Option (List Char × Cursor)
  | [] => some (read, { cursor with rest := [] })
  | character :: rest =>
      if inFlow && misplacedColon (character :: rest) then none
      else if endsPlain inFlow (character :: rest) then
        some (read, { cursor with rest := character :: rest })
      else
        plainStretch inFlow
          { cursor with
            offset := cursor.offset + character.utf8Size
            column := cursor.column + 1 }
          (character :: read) rest

/-- True when a tab stands in the indentation of a continuation line. -/
def hasIndentingTab (indent : Int) (broken : Bool) (column : Nat) : List Char → Bool
  | [] => false
  | character :: rest =>
      if isBreak character then hasIndentingTab indent true 0 rest
      else
        (broken && (column : Int) < indent && character = '\t') ||
          hasIndentingTab indent broken (column + 1) rest

/-- The text of a plain scalar in reverse, with the gap before the next stretch
kept apart, and whether the scalar was left through a line break. -/
def plainContent (inFlow : Bool) (indent : Int) (fuel : Nat) (cursor : Cursor) (read : List Char)
    (gap : List Char) : Option (List Char × Cursor × Bool) :=
  let broken := gap.any isBreak
  match fuel with
  | 0 => none
  | fuel + 1 =>
      if cursor.atDocumentMarker || cursor.rest.head? = some '#' then
        some (read.reverse, cursor, broken)
      else
        match plainStretch inFlow cursor [] cursor.rest with
        | none => none
        | some (stretch, behind) =>
            let extended :=
              if stretch.isEmpty then read else stretch ++ (foldedGap gap).reverse ++ read
            let broken := broken && stretch.isEmpty
            if !startsBlank behind.rest || behind.rest.isEmpty then
              some (extended.reverse, behind, broken)
            else
              let (nextGap, next) := behind.gap
              if hasIndentingTab indent broken behind.column nextGap then none
              else
                let leaves := broken || nextGap.any isBreak
                if !inFlow && (next.column : Int) < indent then
                  some (extended.reverse, next, leaves)
                else plainContent inFlow indent fuel next extended nextGap

/-- A plain scalar, and whether it was left through a line break. Continuation
lines are indented to `indent` at least. -/
def plainScalar? (cursor : Cursor) (inFlow : Bool) (indent : Int) :
    Option (List Char × Cursor × Bool) :=
  plainContent inFlow indent (cursor.bound + 1) cursor [] []

/-! ## Block scalars -/

/-- What becomes of the line breaks at the end of a block scalar. -/
inductive Chomping where
  | strip
  | clip
  | keep
deriving DecidableEq

structure BlockHeader where
  chomping : Chomping := .clip
  increment : Nat := 0

/-- The chomping that a sign asks for. -/
def chomping? (character : Char) : Option Chomping :=
  if character = '+' then some .keep
  else if character = '-' then some .strip
  else none

/-- The indentation that a digit asks for; zero is none. -/
def increment? (character : Char) : Option Nat :=
  if character.isDigit && character ≠ '0' then some (character.toNat - '0'.toNat) else none

/-- The header behind the indicator of a block scalar: a sign and a digit in
either order, each of them optional. -/
def blockHeader? (cursor : Cursor) : Option (BlockHeader × Cursor) :=
  match cursor.rest with
  | first :: rest =>
      match chomping? first with
      | some chomping =>
          match rest with
          | second :: _ =>
              if second.isDigit then
                (increment? second).map fun increment => (⟨chomping, increment⟩, cursor.skip 2)
              else some (⟨chomping, 0⟩, cursor.skip 1)
          | [] => some (⟨chomping, 0⟩, cursor.skip 1)
      | none =>
          if first.isDigit then
            (increment? first).map fun increment =>
              match rest.head?.bind chomping? with
              | some chomping => (⟨chomping, increment⟩, cursor.skip 2)
              | none => (⟨.clip, increment⟩, cursor.skip 1)
          else some ({}, cursor)
  | [] => some ({}, cursor)

/-- Passes over empty lines and the indentation of the next one. `indent` is
zero while it is still to be found out; then all spaces count, and `widest` is
the widest indentation met. -/
def blockBreaks (indent : Nat) (fuel : Nat) (cursor : Cursor) (widest : Nat)
    (breaks : List Char) : Option (List Char × Nat × Cursor) :=
  match fuel with
  | 0 => none
  | fuel + 1 =>
      let (spaces, _) := cursor.run (· = ' ')
      let indented :=
        if indent = 0 then cursor.skip spaces.length
        else cursor.skip (min spaces.length (indent - cursor.column))
      let unsettled := indent = 0 ∨ indented.column < indent
      match indented.rest with
      | '\t' :: _ =>
          if unsettled then none else some (breaks.reverse, max widest indented.column, indented)
      | character :: _ =>
          if isBreak character then
            blockBreaks indent fuel indented.skipBreak (max widest indented.column)
              (normalBreak character :: breaks)
          else some (breaks.reverse, max widest indented.column, indented)
      | [] => some (breaks.reverse, max widest indented.column, indented)

/-- A block scalar whose lines are being read. -/
structure BlockLines where
  /-- The text so far, in reverse. -/
  read : List Char := []
  /-- The break behind the last line. -/
  leadingBreak : List Char := []
  /-- The breaks of the empty lines behind it. -/
  trailingBreaks : List Char := []
  /-- Whether the last line began with a blank. -/
  leadingBlank : Bool := false

/-- The breaks that part the last line from the next one. A folded scalar turns
a single break between lines that begin with a word into a space. -/
def BlockLines.separator (lines : BlockLines) (literal nextBlank : Bool) : List Char :=
  if !literal && lines.leadingBreak = ['\n'] && !lines.leadingBlank && !nextBlank then
    if lines.trailingBreaks.isEmpty then [' '] else lines.trailingBreaks
  else lines.leadingBreak ++ lines.trailingBreaks

/-- The lines of a block scalar at a known indentation. -/
def blockLines (literal : Bool) (indent : Nat) (fuel : Nat) (cursor : Cursor)
    (lines : BlockLines) : Option (BlockLines × Cursor) :=
  match fuel with
  | 0 => none
  | fuel + 1 =>
      if cursor.column = indent ∧ !cursor.rest.isEmpty then
        let nextBlank := (cursor.rest.head?.map isBlank).getD false
        let (line, behind) := cursor.run fun character => !isBreak character
        let (leadingBreak, next) := behind.readBreak
        match blockBreaks indent (next.bound + 1) next 0 [] with
        | none => none
        | some (trailingBreaks, _, following) =>
            blockLines literal indent fuel following
              { read := line.reverse ++ (lines.separator literal nextBlank).reverse ++ lines.read
                leadingBreak, trailingBreaks, leadingBlank := nextBlank }
      else some (lines, cursor)

/-- The text of a block scalar with its last breaks chomped. -/
def BlockLines.text (lines : BlockLines) (chomping : Chomping) : List Char :=
  lines.read.reverse ++
    match chomping with
    | .strip => []
    | .clip => lines.leadingBreak
    | .keep => lines.leadingBreak ++ lines.trailingBreaks

/-- A block scalar, the cursor standing before its indicator. Without a digit in
the header its indentation is that of its first line, and at least one more
than that of the enclosing block. -/
def blockScalar? (cursor : Cursor) (literal : Bool) (enclosing : Int) :
    Option (List Char × Cursor) := do
  let (header, behindHeader) ← (cursor.skip 1).blockHeader?
  let lineEnd ← behindHeader.skipComment?
  let start := lineEnd.skipBreak
  let declared := if header.increment = 0 then 0 else (max enclosing 0).toNat + header.increment
  let (breaks, widest, first) ← blockBreaks declared (start.bound + 1) start 0 []
  let indent := if declared = 0 then max (max widest (enclosing + 1).toNat) 1 else declared
  let (lines, behind) ←
    blockLines literal indent (first.bound + 1) first { trailingBreaks := breaks }
  return (lines.text header.chomping, behind)

end SchemaCompiler.Yaml.Cursor
