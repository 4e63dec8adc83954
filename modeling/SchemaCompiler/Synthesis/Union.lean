import SchemaCompiler.Synthesis.Typing
import SchemaCompiler.Projection

/-!
Contract: unions as records with one optional field per alternative.

Owns:
- `Variant`, an alternative with the name it is written under and the distinct
  identifier it is generated under;
- `SchemaIndex.unionDefinition`, the record of a union.

Nothing enforces that exactly one field of such a record is set.

Does not own: which nodes are unions.
-/

namespace SchemaCompiler

/-- An alternative of a union with its names. -/
structure Variant where
  name : String
  exportedName : String
  member : Schema

namespace Variant

/-- The name of the alternative at a position that has no other name. -/
def positional (position : Nat) : String :=
  "Variant" ++ toString (position + 1)

/-- The name of an alternative: that of its reference, its title, its declared
type, or its position. -/
def nameOf (position : Nat) : Schema → String
  | .reference target => target.schemaName
  | .inline node =>
      match node.title.filter (· ≠ ""), node.type with
      | some title, _ => title
      | none, some primitive => primitive.keyword
      | none, none => positional position

/-- The identifier of an alternative before it is made distinct. -/
def identifierOf (position : Nat) (name : String) : String :=
  let exported := Naming.exportedName name
  if exported = "" then positional position else exported

/-- Names the alternatives from `position` on. An identifier that an earlier
alternative has taken gets the least free number. -/
def named (taken : List String) (position : Nat) : List Schema → List Variant
  | [] => []
  | member :: rest =>
      let name := nameOf position member
      let exportedName := Naming.firstFree taken (identifierOf position name)
      ⟨name, exportedName, member⟩ :: named (taken ++ [exportedName]) (position + 1) rest

/-- The named alternatives of a union, in order. -/
def ofNode (node : SchemaNode) : List Variant :=
  named [] 0 node.unionMembers

end Variant

namespace SchemaIndex

/-- The optional field of an alternative. -/
def variantField (index : SchemaIndex) (trail : List String) (variant : Variant) :
    Except ReferenceCycle FieldDefinition :=
  (index.typeOf trail true variant.member).map fun type =>
    { name := variant.name
      exportedName := variant.exportedName
      type := type.makeOptional
      optional := true
      tag := ⟨Naming.lowerCamel variant.exportedName, true⟩
      description := (index.nodeOf variant.member).bind SchemaNode.normalDescription
      default := none
      annotate := index.isAnnotatable variant.member }

/-- The fields of a union, one for each alternative in order. -/
def unionFields (index : SchemaIndex) (trail : List String) (node : SchemaNode) :
    Except ReferenceCycle (List FieldDefinition) :=
  (Variant.ofNode node).mapM (index.variantField trail)

/-- The record of a union called `name`. -/
def unionDefinition (index : SchemaIndex) (trail : List String) (name : String)
    (node : SchemaNode) : Except ReferenceCycle TypeDefinition :=
  (index.unionFields trail node).map fun fields =>
    .record (Naming.exportedName name) node.normalDescription fields

end SchemaIndex

end SchemaCompiler
