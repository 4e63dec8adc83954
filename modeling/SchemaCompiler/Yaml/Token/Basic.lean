import SchemaCompiler.Text.Utf8

/-!
Contract: the tokens of a YAML text.

Owns:
- `TagBytes`, the tags of nodes;
- `Token`, indicators, properties and scalars as they follow one another, with
  the block structure that indentation implies written out.

Does not own: how tokens are found (`SchemaCompiler.Yaml.Token.Stream`) or what
they mean together (`SchemaCompiler.Yaml.Event`).
-/

namespace SchemaCompiler.Yaml

inductive ScalarStyle where
  | plain
  | singleQuoted
  | doubleQuoted
  | literal
  | folded
deriving DecidableEq, Repr

/-- The bytes of a tag, which its escapes may make up freely. -/
abbrev TagBytes := List UInt8

namespace TagBytes

/-- The lone exclamation mark as a tag. -/
def loneMark : TagBytes := Text.utf8Bytes ['!']

/-- What the tags that every document knows begin with. -/
def standardLead : TagBytes := Text.utf8Bytes "tag:yaml.org,2002:".toList

/-- One of the tags that every document knows. -/
def standard (name : String) : TagBytes :=
  standardLead ++ Text.utf8Bytes name.toList

/-- The part of a tag that counts: an escaped zero byte ends it. -/
def beforeZero (tag : TagBytes) : TagBytes :=
  tag.takeWhile (· ≠ 0)

/-- True for the tags that begin with an exclamation mark. -/
def isLocal (tag : TagBytes) : Bool :=
  loneMark.isPrefixOf tag

/-- True for the local tags that are well-formed text. -/
def isCustom (tag : TagBytes) : Bool :=
  tag.isLocal && (Text.decodeStrict? tag).isSome

end TagBytes

inductive Token where
  | versionDirective (major minor : Nat)
  | tagDirective (handle : String) (lead : TagBytes)
  | documentStart
  | documentEnd
  | blockSequenceStart
  | blockMappingStart
  | blockEnd
  | flowSequenceStart
  | flowSequenceEnd
  | flowMappingStart
  | flowMappingEnd
  | blockEntry
  | flowEntry
  | key
  | value
  | alias (name : String)
  | anchor (name : String)
  | tag (handle : String) (rest : TagBytes)
  | scalar (style : ScalarStyle) (text : String)
  | streamEnd
deriving DecidableEq, Repr

end SchemaCompiler.Yaml
