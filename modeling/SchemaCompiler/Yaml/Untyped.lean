import SchemaCompiler.Yaml.Node
import SchemaCompiler.Yaml.Resolution

/-!
Contract: documents as dynamic values.

Owns:
- `Decoding`, which counts the aliases followed so far;
- `Decoding.value`, the dynamic value of a node, aliases being expanded;
- `YamlDocument.toJson?`, the value of a whole document.

Nesting is limited to 128 collections, and the number of aliases followed to a
hundred for every event of the document. Keys of mappings are the source texts
of scalars; the last value of a repeated key stays at its first position.

Does not own: records with fields of known types.
-/

namespace SchemaCompiler.Yaml

def nestingLimit : Nat := 128

/-- The number of aliases followed for every event of a document. -/
def aliasesPerEvent : Nat := 100

/-- Decoding of a document's nodes. The state counts the aliases followed;
failures are of type `ε`. -/
abbrev Decoding (ε α : Type) := ReaderT YamlDocument (StateT Nat (Except ε)) α

namespace Decoding

variable {ε : Type}

/-- The node itself, or the one an alias stands for. -/
def resolved (failure : ε) (node : Node) : Decoding ε Node := do
  match node with
  | .alias slot =>
      let document ← read
      let followed ← get
      set (followed + 1)
      if aliasesPerEvent * document.eventCount < followed + 1 then throw failure
      match document.target? slot with
      | some target => return target
      | none => throw failure
  | node => return node

/-- The source text of a scalar, whatever its tag. -/
def text (failure : ε) (node : Node) : Decoding ε String := do
  match ← resolved failure node with
  | .scalar scalar => return scalar.text
  | _ => throw failure

/-- The dynamic value of a node with `depth` levels of nesting left. -/
def value (failure : ε) (depth : Nat) (node : Node) : Decoding ε Json := do
  match ← resolved failure node with
  | .scalar scalar =>
      match scalar.value? with
      | some value => return value
      | none => throw failure
  | .sequence tag items =>
      if isCustomTag tag then throw failure
      match depth with
      | 0 => throw failure
      | depth + 1 => return .array (← items.mapM (value failure depth))
  | .mapping tag entries =>
      if isCustomTag tag then throw failure
      match depth with
      | 0 => throw failure
      | depth + 1 =>
          let pairs ← entries.mapM fun (key, content) => do
            let name ← text failure key
            return (name, ← value failure depth content)
          return .object (Entries.ofList pairs)
  | .alias _ | .cut => throw failure

end Decoding

namespace YamlDocument

/-- Decodes the root of a document; everything in it must be sound. An empty
document has the value `ofEmpty`. -/
def decode {ε α : Type} (document : YamlDocument) (failure : ε) (ofEmpty : α)
    (read : Node → Decoding ε α) : Except ε α := do
  let result ←
    match document.root with
    | none => pure ofEmpty
    | some root => ((read root).run document).run' 0
  if document.complete then return result else throw failure

/-- The dynamic value of a document, `none` when it is faulty. -/
def toJson? (document : YamlDocument) : Option Json :=
  (document.decode () .null (Decoding.value () nestingLimit)).toOption

end YamlDocument

/-- The dynamic value that a YAML text stands for. -/
def parseJson? (text : String) : Option Json :=
  (YamlDocument.ofText text).toJson?

end SchemaCompiler.Yaml
