import SchemaCompiler.Yaml.Token.Stream

/-!
Contract: the structure of a document as a flat sequence of events.

Owns:
- `Event`, the nodes of a document in order, collections being bracketed by a
  start and an end;
- `EventStream.ofTokens`, which reads the single document of a token stream.

A text holds at most one document. Reading stops at the first fault with the
events found so far, and such a stream is not complete.

Does not own: anchors and aliases, which `SchemaCompiler.Yaml.Node` connects.
-/

namespace SchemaCompiler.Yaml

/-- The tag a node is given, if it is given one. -/
abbrev TagName := Option TagBytes

structure Scalar where
  tag : TagName
  style : ScalarStyle
  text : String
deriving DecidableEq, Repr

inductive Event where
  | alias (name : String)
  | scalar (anchor : Option String) (scalar : Scalar)
  | sequenceStart (anchor : Option String) (tag : TagName)
  | sequenceEnd
  | mappingStart (anchor : Option String) (tag : TagName)
  | mappingEnd
deriving DecidableEq, Repr

/-- The tag handles of a document with the texts they stand for. -/
abbrev TagHandles := List (String × TagBytes)

/-- The state of reading events: the tokens still to be read, and the events
found, last one first. -/
structure EventReader where
  tokens : List Token
  handles : TagHandles := []
  found : List Event := []

/-- Reading that may meet a fault; the events found before it stay. -/
abbrev Reading (α : Type) := ExceptT Unit (StateM EventReader) α

namespace Reading

/-- A fault in the structure of the text. -/
def fault {α : Type} : Reading α := throw ()

/-- The next token. The end of the tokens of an incomplete stream is a fault. -/
def peek : Reading Token := do
  match (← get).tokens with
  | token :: _ => return token
  | [] => fault

def pass : Reading Unit :=
  modify fun reader => { reader with tokens := reader.tokens.drop 1 }

def emit (event : Event) : Reading Unit :=
  modify fun reader => { reader with found := event :: reader.found }

/-- Adds the empty scalar that stands for a missing node. -/
def emitMissing : Reading Unit :=
  emit (.scalar none ⟨none, .plain, ""⟩)

/-! ## Node properties -/

/-- An anchor and a tag in front of a node, in either order. -/
structure Properties where
  anchor : Option String := none
  tag : TagName := none

/-- The tag that a handle and a rest make up. Handles must be declared, except
for the two that always are. -/
def tagName (handle : String) (rest : TagBytes) : Reading TagBytes := do
  if handle = "" then return rest
  match (← get).handles.find? fun declared => declared.1 = handle with
  | some (_, lead) => return lead ++ rest
  | none => fault

def anchor? : Reading (Option String) := do
  match ← peek with
  | .anchor name => do
      pass
      return some name
  | _ => return none

/-- A tag, if one stands here. Its handle is looked up once all properties are
read. -/
def tagToken? : Reading (Option (String × TagBytes)) := do
  match ← peek with
  | .tag handle rest => do
      pass
      return some (handle, rest)
  | _ => return none

/-- The properties in front of a node. -/
def properties : Reading Properties := do
  let early ← tagToken?
  let anchor ← anchor?
  let late ←
    match early, anchor with
    | none, some _ => tagToken?
    | _, _ => pure none
  match early.or late with
  | none => return { anchor }
  | some (handle, rest) => return { anchor, tag := some (← tagName handle rest) }

/-! ## Nodes

The fuel bounds the number of tokens and of missing nodes passed over, both of
which the number of tokens bounds. -/

mutual

/-- One node. In the block context block collections may begin here; where a
mapping holds it, also a sequence that is not indented. -/
def node (fuel : Nat) (block indentless : Bool) : Reading Unit :=
  match fuel with
  | 0 => fault
  | fuel + 1 => do
      match ← peek with
      | .alias name => do
          emit (.alias name)
          pass
      | _ => do
          let found ← properties
          match ← peek with
          | .scalar style text => do
              emit (.scalar found.anchor ⟨found.tag, style, text⟩)
              pass
          | .flowSequenceStart => do
              emit (.sequenceStart found.anchor found.tag)
              pass
              flowItems fuel true
          | .flowMappingStart => do
              emit (.mappingStart found.anchor found.tag)
              pass
              flowEntries fuel true
          | token =>
              if indentless && token = .blockEntry then do
                emit (.sequenceStart found.anchor found.tag)
                indentlessItems fuel
              else if block && token = .blockSequenceStart then do
                emit (.sequenceStart found.anchor found.tag)
                pass
                blockItems fuel
              else if block && token = .blockMappingStart then do
                emit (.mappingStart found.anchor found.tag)
                pass
                blockEntries fuel
              else if found.anchor.isSome || found.tag.isSome then
                emit (.scalar found.anchor ⟨found.tag, .plain, ""⟩)
              else fault

/-- The items of an indented block sequence. -/
def blockItems (fuel : Nat) : Reading Unit :=
  match fuel with
  | 0 => fault
  | fuel + 1 => do
      match ← peek with
      | .blockEntry => do
          pass
          match ← peek with
          | .blockEntry | .blockEnd => emitMissing
          | _ => node fuel true false
          blockItems fuel
      | .blockEnd => do
          emit .sequenceEnd
          pass
      | _ => fault

/-- The items of a block sequence that stands at the indentation of the mapping
around it. -/
def indentlessItems (fuel : Nat) : Reading Unit :=
  match fuel with
  | 0 => fault
  | fuel + 1 => do
      match ← peek with
      | .blockEntry => do
          pass
          match ← peek with
          | .blockEntry | .key | .value | .blockEnd => emitMissing
          | _ => node fuel true false
          indentlessItems fuel
      | _ => emit .sequenceEnd

def blockEntries (fuel : Nat) : Reading Unit :=
  match fuel with
  | 0 => fault
  | fuel + 1 => do
      match ← peek with
      | .key => do
          pass
          match ← peek with
          | .key | .value | .blockEnd => emitMissing
          | _ => node fuel true true
          blockValue fuel
          blockEntries fuel
      | .blockEnd => do
          emit .mappingEnd
          pass
      | _ => fault

/-- The value of a block mapping entry. -/
def blockValue (fuel : Nat) : Reading Unit :=
  match fuel with
  | 0 => fault
  | fuel + 1 => do
      match ← peek with
      | .value => do
          pass
          match ← peek with
          | .key | .value | .blockEnd => emitMissing
          | _ => node fuel true true
      | _ => emitMissing

/-- The items of a flow sequence. An item with a colon is a mapping of one
entry. -/
def flowItems (fuel : Nat) (first : Bool) : Reading Unit :=
  match fuel with
  | 0 => fault
  | fuel + 1 => do
      match ← peek with
      | .flowSequenceEnd => do
          emit .sequenceEnd
          pass
      | token => do
          if !first then
            if token = .flowEntry then pass else fault
          match ← peek with
          | .flowSequenceEnd => do
              emit .sequenceEnd
              pass
          | .key => do
              emit (.mappingStart none none)
              pass
              match ← peek with
              | .value | .flowEntry | .flowSequenceEnd => do
                  pass
                  emitMissing
              | _ => node fuel false false
              flowPairValue fuel
              emit .mappingEnd
              flowItems fuel false
          | _ => do
              node fuel false false
              flowItems fuel false

/-- The value of a mapping of one entry inside a flow sequence. -/
def flowPairValue (fuel : Nat) : Reading Unit :=
  match fuel with
  | 0 => fault
  | fuel + 1 => do
      match ← peek with
      | .value => do
          pass
          match ← peek with
          | .flowEntry | .flowSequenceEnd => emitMissing
          | _ => node fuel false false
      | _ => emitMissing

/-- The entries of a flow mapping. An entry without a colon has no value. -/
def flowEntries (fuel : Nat) (first : Bool) : Reading Unit :=
  match fuel with
  | 0 => fault
  | fuel + 1 => do
      match ← peek with
      | .flowMappingEnd => do
          emit .mappingEnd
          pass
      | token => do
          if !first then
            if token = .flowEntry then pass else fault
          match ← peek with
          | .flowMappingEnd => do
              emit .mappingEnd
              pass
          | .key => do
              pass
              match ← peek with
              | .value | .flowEntry | .flowMappingEnd => emitMissing
              | _ => node fuel false false
              flowValue fuel
              flowEntries fuel false
          | _ => do
              node fuel false false
              emitMissing
              flowEntries fuel false

/-- The value of a flow mapping entry. -/
def flowValue (fuel : Nat) : Reading Unit :=
  match fuel with
  | 0 => fault
  | fuel + 1 => do
      match ← peek with
      | .value => do
          pass
          match ← peek with
          | .flowEntry | .flowMappingEnd => emitMissing
          | _ => node fuel false false
      | _ => emitMissing

end

/-! ## Documents -/

/-- The tag handles that need no declaration. -/
def standardHandles : TagHandles :=
  [("!", TagBytes.loneMark), ("!!", TagBytes.standardLead)]

/-- The directives in front of a document. At most one names the version, which
must be 1.1 or 1.2, and no tag handle is declared twice. -/
def directives (fuel : Nat) (versioned : Bool) (handles : TagHandles) : Reading TagHandles :=
  match fuel with
  | 0 => fault
  | fuel + 1 => do
      match ← peek with
      | .versionDirective major minor => do
          if versioned || major ≠ 1 || (minor ≠ 1 && minor ≠ 2) then fault
          pass
          directives fuel true handles
      | .tagDirective handle lead => do
          if handles.any fun declared => declared.1 = handle then fault
          pass
          directives fuel versioned (handles ++ [(handle, lead)])
      | _ => return handles ++ standardHandles

/-- The content of a document that begins with a marker; it may be missing. -/
def markedContent (fuel : Nat) : Reading Unit := do
  match ← peek with
  | .versionDirective .. | .tagDirective .. | .documentStart | .documentEnd | .streamEnd =>
      emitMissing
  | _ => node fuel true false

def documentEnds (fuel : Nat) : Reading Unit :=
  match fuel with
  | 0 => fault
  | fuel + 1 => do
      match ← peek with
      | .documentEnd => do
          pass
          documentEnds fuel
      | _ => return ()

/-- The only document of a text: nothing at all, content without a marker, or
directives, a marker and content. Behind it only markers of document end may
follow. -/
def document (fuel : Nat) : Reading Unit := do
  match ← peek with
  | .streamEnd => return ()
  | .versionDirective .. | .tagDirective .. | .documentStart => do
      let handles ← directives fuel false []
      modify fun reader => { reader with handles }
      match ← peek with
      | .documentStart => pass
      | _ => fault
      markedContent fuel
  | _ => do
      modify fun reader => { reader with handles := standardHandles }
      node fuel true false
  documentEnds fuel
  match ← peek with
  | .streamEnd => return ()
  | _ => fault

end Reading

structure EventStream where
  events : List Event
  complete : Bool

namespace EventStream

def ofTokens (stream : TokenStream) : EventStream :=
  let fuel := 4 * stream.tokens.length + 8
  let (result, reader) := ((Reading.document fuel).run).run { tokens := stream.tokens }
  ⟨reader.found.reverse, result.isOk⟩

def ofText (text : String) : EventStream :=
  ofTokens (TokenStream.ofText text)

end EventStream

end SchemaCompiler.Yaml
