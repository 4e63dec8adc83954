import SchemaCompiler.Yaml.Token.Scalar

/-!
Contract: the token sequence of a whole text.

Owns:
- `Scanner`, the reading position with the block indentation, the nesting of
  flow collections and the keys that may still turn out to be simple ones;
- `Scanner.step`, which reads past the next indicator or scalar;
- `TokenStream.ofText`, the tokens of a text up to its end or to the first fault.

A simple key is recognised only when its colon is met, so its tokens are put in
front of it afterwards. Until then nothing from the key on has been handed over:
behind a fault, the tokens from the first undecided key on are withheld.

Does not own: the structure of documents (`SchemaCompiler.Yaml.Event`).
-/

namespace SchemaCompiler.Yaml

/-- A place where a simple key may begin. -/
structure SimpleKey where
  /-- The key stands where nothing but a key can stand. -/
  required : Bool
  /-- The number of tokens in front of it. -/
  position : Nat
  offset : Nat
  line : Nat
  column : Nat

namespace SimpleKey

/-- The longest stretch between the beginning of a simple key and its colon, in
bytes. -/
def reach : Nat := 1024

/-- True when a key can no longer be followed by its colon, which stands on the
same line and not too far away. -/
def isStale (key : SimpleKey) (cursor : Cursor) : Bool :=
  key.line < cursor.line || key.offset + reach < cursor.offset

end SimpleKey

structure Scanner where
  cursor : Cursor
  /-- The column of the innermost block collection, -1 outside all of them. -/
  indent : Int := -1
  /-- The columns of the collections around it, innermost first. -/
  outerIndents : List Int := []
  /-- The possible simple keys of the flow collections, innermost first; the
  last one belongs to the block context. -/
  keys : List (Option SimpleKey) := [none]
  simpleKeyAllowed : Bool := true
  /-- The tokens, last one first. -/
  tokens : List Token := []
  tokenCount : Nat := 0
  finished : Bool := false

namespace Scanner

def inFlow (scanner : Scanner) : Bool :=
  1 < scanner.keys.length

/-- The possible simple key of the innermost collection. -/
def currentKey (scanner : Scanner) : Option SimpleKey :=
  scanner.keys.head?.getD none

/-- Replaces the possible simple key of the innermost collection. -/
def withCurrentKey (scanner : Scanner) (key : Option SimpleKey) : Scanner :=
  { scanner with keys := key :: scanner.keys.drop 1 }

def push (scanner : Scanner) (token : Token) : Scanner :=
  { scanner with tokens := token :: scanner.tokens, tokenCount := scanner.tokenCount + 1 }

/-- Puts a token in front of those from `position` on. -/
def insertAt (scanner : Scanner) (position : Nat) (token : Token) : Scanner :=
  let later := scanner.tokenCount - position
  { scanner with
    tokens := scanner.tokens.take later ++ token :: scanner.tokens.drop later
    tokenCount := scanner.tokenCount + 1 }

/-- The number of tokens that no later colon can change. -/
def settledCount (scanner : Scanner) : Nat :=
  (scanner.keys.filterMap id).foldl (fun count key => min count key.position)
    scanner.tokenCount

/-- Gives up the keys that have gone stale; a required one is missing its
colon then. -/
def dropStaleKeys? (scanner : Scanner) : Option Scanner :=
  let stale (key : SimpleKey) : Bool := key.isStale scanner.cursor
  if scanner.keys.any fun key => (key.map fun found => stale found && found.required).getD false
  then none
  else
    some { scanner with
      keys := scanner.keys.map fun key => key.filter fun found => !stale found }

/-- Marks the place as one where a simple key may begin, if one may. -/
def saveKey? (scanner : Scanner) : Option Scanner :=
  if scanner.simpleKeyAllowed then
    if (scanner.currentKey.map SimpleKey.required).getD false then none
    else
      some (scanner.withCurrentKey (some
        { required := !scanner.inFlow && scanner.indent = scanner.cursor.column
          position := scanner.tokenCount
          offset := scanner.cursor.offset
          line := scanner.cursor.line
          column := scanner.cursor.column }))
  else some scanner

/-- Gives up the possible key of the innermost collection; a required one is
missing its colon then. -/
def removeKey? (scanner : Scanner) : Option Scanner :=
  if (scanner.currentKey.map SimpleKey.required).getD false then none
  else some (scanner.withCurrentKey none)

/-- Opens a block collection when `column` lies to the right of the innermost
one; its token goes in front of those from `position` on. -/
def rollIndent (scanner : Scanner) (column position : Nat) (token : Token) : Scanner :=
  if scanner.inFlow || (column : Int) ≤ scanner.indent then scanner
  else
    { scanner with
      indent := column
      outerIndents := scanner.indent :: scanner.outerIndents }.insertAt position token

/-- The innermost of nested columns that is not to the right of `column`, with
those around it, and the number of columns left behind. -/
def columnsUpTo (column indent : Int) : List Int → Int × List Int × Nat
  | [] => (indent, [], 0)
  | outer :: others =>
      if column < indent then
        let (reached, around, closed) := columnsUpTo column outer others
        (reached, around, closed + 1)
      else (indent, outer :: others, 0)

/-- Closes the block collections to the right of `column`; flow collections are
not indented. -/
def unrollIndent (scanner : Scanner) (column : Int) : Scanner :=
  if scanner.inFlow then scanner
  else
    let (indent, outerIndents, closed) := columnsUpTo column scanner.indent scanner.outerIndents
    { scanner with
      indent, outerIndents
      tokens := List.replicate closed .blockEnd ++ scanner.tokens
      tokenCount := scanner.tokenCount + closed }

/-- Passes over blanks, comments and line breaks, and over a byte order mark
that begins a line. Tabs count as blanks only where no simple key may begin;
outside flow collections a new line allows one. -/
def skipToToken (fuel : Nat) (scanner : Scanner) : Scanner :=
  match fuel with
  | 0 => scanner
  | fuel + 1 =>
      let tabs := scanner.inFlow || !scanner.simpleKeyAllowed
      let (_, behind) := scanner.cursor.skipOrderMark.run fun character =>
        character = ' ' || (tabs && character = '\t')
      let behind :=
        match behind.rest with
        | '#' :: _ => (behind.run fun character => !isBreak character).2
        | _ => behind
      match behind.rest with
      | character :: _ =>
          if isBreak character then
            skipToToken fuel
              { scanner with
                cursor := behind.skipBreak
                simpleKeyAllowed := scanner.simpleKeyAllowed || !scanner.inFlow }
          else { scanner with cursor := behind }
      | [] => { scanner with cursor := behind }

/-! ## Reading one token -/

/-- Moves on by `count` characters, emitting a token. -/
def emit (scanner : Scanner) (count : Nat) (token : Token) : Scanner :=
  { scanner with cursor := scanner.cursor.skip count }.push token

/-- The end of the text, which counts as the beginning of a line. -/
def fetchStreamEnd? (scanner : Scanner) : Option Scanner := do
  let cleared ← (scanner.unrollIndent (-1)).removeKey?
  return { cleared.push .streamEnd with
    cursor := cleared.cursor.onFreshLine
    simpleKeyAllowed := false
    finished := true }

def fetchDirective? (scanner : Scanner) : Option Scanner := do
  let cleared ← (scanner.unrollIndent (-1)).removeKey?
  let (token, cursor) ← cleared.cursor.directive?
  return { cleared with cursor, simpleKeyAllowed := false }.push token

/-- A marker of document start or end. -/
def fetchDocumentMarker? (scanner : Scanner) (token : Token) : Option Scanner := do
  let cleared ← (scanner.unrollIndent (-1)).removeKey?
  return { cleared with simpleKeyAllowed := false }.emit 3 token

/-- The opening of a flow collection, itself the possible beginning of a key. -/
def fetchFlowStart? (scanner : Scanner) (token : Token) : Option Scanner := do
  let saved ← scanner.saveKey?
  return { saved with keys := none :: saved.keys, simpleKeyAllowed := true }.emit 1 token

def fetchFlowEnd? (scanner : Scanner) (token : Token) : Option Scanner := do
  let cleared ← scanner.removeKey?
  let keys := if cleared.inFlow then cleared.keys.drop 1 else cleared.keys
  return { cleared with keys, simpleKeyAllowed := false }.emit 1 token

def fetchFlowEntry? (scanner : Scanner) : Option Scanner := do
  let cleared ← scanner.removeKey?
  return { cleared with simpleKeyAllowed := true }.emit 1 .flowEntry

def fetchBlockEntry? (scanner : Scanner) : Option Scanner := do
  if !scanner.inFlow && !scanner.simpleKeyAllowed then none
  let rolled :=
    scanner.rollIndent scanner.cursor.column scanner.tokenCount .blockSequenceStart
  let cleared ← rolled.removeKey?
  return { cleared with simpleKeyAllowed := true }.emit 1 .blockEntry

def fetchKey? (scanner : Scanner) : Option Scanner := do
  if !scanner.inFlow && !scanner.simpleKeyAllowed then none
  let rolled := scanner.rollIndent scanner.cursor.column scanner.tokenCount .blockMappingStart
  let cleared ← rolled.removeKey?
  return { cleared with simpleKeyAllowed := !cleared.inFlow }.emit 1 .key

/-- The colon of a value. It turns the possible key before it into one. -/
def fetchValue? (scanner : Scanner) : Option Scanner :=
  match scanner.currentKey with
  | some key =>
      let keyed :=
        (scanner.insertAt key.position .key).rollIndent key.column key.position .blockMappingStart
      some ({ keyed.withCurrentKey none with simpleKeyAllowed := false }.emit 1 .value)
  | none =>
      if !scanner.inFlow && !scanner.simpleKeyAllowed then none
      else
        let rolled :=
          scanner.rollIndent scanner.cursor.column scanner.tokenCount .blockMappingStart
        some ({ rolled with simpleKeyAllowed := !rolled.inFlow }.emit 1 .value)

/-- A property or scalar that may begin a simple key. -/
def fetchContent? (scanner : Scanner) (read : Cursor → Option (Token × Cursor)) :
    Option Scanner := do
  let saved ← scanner.saveKey?
  let (token, cursor) ← read saved.cursor
  return { saved with cursor, simpleKeyAllowed := false }.push token

/-- A block scalar, behind which a simple key may begin. -/
def fetchBlockScalar? (scanner : Scanner) (literal : Bool) : Option Scanner := do
  let cleared ← scanner.removeKey?
  let (text, cursor) ← cleared.cursor.blockScalar? literal cleared.indent
  let style := if literal then ScalarStyle.literal else .folded
  return { cleared with cursor, simpleKeyAllowed := true }.push
    (.scalar style (String.ofList text))

def fetchQuoted? (scanner : Scanner) (single : Bool) : Option Scanner :=
  scanner.fetchContent? fun cursor =>
    (cursor.quotedScalar? single).map fun (text, behind) =>
      let style := if single then ScalarStyle.singleQuoted else .doubleQuoted
      (.scalar style (String.ofList text), behind)

/-- A plain scalar. One that is left through a line break allows a simple key
behind it. -/
def fetchPlain? (scanner : Scanner) : Option Scanner := do
  let saved ← scanner.saveKey?
  let (text, cursor, broken) ← saved.cursor.plainScalar? saved.inFlow (saved.indent + 1)
  return { saved with cursor, simpleKeyAllowed := broken }.push
    (.scalar .plain (String.ofList text))

/-- The name of an anchor or alias with its indicator. -/
def fetchName? (scanner : Scanner) (token : String → Token) : Option Scanner :=
  scanner.fetchContent? fun cursor =>
    ((cursor.skip 1).anchorName?).map fun (name, behind) => (token name, behind)

/-- The indicators that no plain scalar begins with. -/
def isIndicator (character : Char) : Bool :=
  "-?:,[]\x7b\x7d#&*!|>'\"%@\x60".toList.contains character

/-- True where a plain scalar begins: at any character that is no indicator, and
at a dash, question mark or colon that is part of a word. -/
def startsPlain (inFlow : Bool) : List Char → Bool
  | [] => false
  | character :: rest =>
      if isBlank character || isBreak character then false
      else if !isIndicator character then true
      else if character = '-' then !(rest.head?.map isBlank).getD false
      else (character = '?' || character = ':') && !inFlow && !startsBlank rest

/-- Reads the token at the cursor, which stands before no blank. -/
def fetch? (scanner : Scanner) : Option Scanner :=
  let inFlow := scanner.inFlow
  match scanner.cursor.rest with
  | [] => scanner.fetchStreamEnd?
  | character :: rest =>
      if scanner.cursor.column = 0 ∧ character = '%' then scanner.fetchDirective?
      else if scanner.cursor.atDocumentMarker then
        scanner.fetchDocumentMarker? (if character = '-' then .documentStart else .documentEnd)
      else if character = '[' then scanner.fetchFlowStart? .flowSequenceStart
      else if character = '\x7b' then scanner.fetchFlowStart? .flowMappingStart
      else if character = ']' then scanner.fetchFlowEnd? .flowSequenceEnd
      else if character = '\x7d' then scanner.fetchFlowEnd? .flowMappingEnd
      else if character = ',' then scanner.fetchFlowEntry?
      else if character = '-' ∧ startsBlank rest then scanner.fetchBlockEntry?
      else if character = '?' ∧ (inFlow || startsBlank rest) then scanner.fetchKey?
      else if character = ':' ∧ (inFlow || startsBlank rest) then scanner.fetchValue?
      else if character = '*' then scanner.fetchName? .alias
      else if character = '&' then scanner.fetchName? .anchor
      else if character = '!' then scanner.fetchContent? fun cursor => cursor.tag? inFlow
      else if character = '|' ∧ !inFlow then scanner.fetchBlockScalar? true
      else if character = '>' ∧ !inFlow then scanner.fetchBlockScalar? false
      else if character = '\'' then scanner.fetchQuoted? true
      else if character = '"' then scanner.fetchQuoted? false
      else if startsPlain inFlow (character :: rest) then scanner.fetchPlain?
      else none

def step (scanner : Scanner) : Option Scanner := do
  let placed ← (skipToToken (scanner.cursor.bound + 1) scanner).dropStaleKeys?
  let fetched ← (placed.unrollIndent placed.cursor.column).fetch?
  fetched.dropStaleKeys?

end Scanner

/-- The tokens of a text. A stream that is not complete stops at a fault. -/
structure TokenStream where
  tokens : List Token
  complete : Bool

namespace TokenStream

/-- Reads tokens until the end of the text or a fault. Every step but the last
passes over a character, so the length of the text bounds the steps. -/
def collect (fuel : Nat) (scanner : Scanner) : TokenStream :=
  match fuel with
  | 0 => ⟨[], false⟩
  | fuel + 1 =>
      match scanner.step with
      | none => ⟨scanner.tokens.reverse.take scanner.settledCount, false⟩
      | some next => if next.finished then ⟨next.tokens.reverse, true⟩ else collect fuel next

def ofText (text : String) : TokenStream :=
  match readableCharacters? text with
  | none => ⟨[], false⟩
  | some characters => collect (characters.length + 2) { cursor := { rest := characters } }

end TokenStream

end SchemaCompiler.Yaml
