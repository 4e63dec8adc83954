import SchemaCompiler.Index
import SchemaCompiler.Literal
import SchemaCompiler.Text.Words

/-!
Contract: what a field takes over from the schema behind it.

Owns:
- the normalized description of a node, and of a schema through its reference
  or its only parent;
- the default literal of a schema through its reference;
- `SchemaIndex.isAnnotatable`, which tells whether a field delegates to a type
  with annotations of its own.

Does not own: the types of fields.
-/

namespace SchemaCompiler

/-- The description of a node on one line. -/
def SchemaNode.normalDescription (node : SchemaNode) : Option String :=
  node.description.bind Text.normalized?

namespace SchemaIndex

/-- The description of a schema: that of a reference's target; for a node its
own, or else that of its only parent when the parent is a reference. -/
def descriptionOf (index : SchemaIndex) : Schema → Option String
  | .reference target => (index.resolve target).bind SchemaNode.normalDescription
  | .inline node =>
      match node.normalDescription with
      | some description => some description
      | none =>
          ((node.soleParentReference?).bind index.resolve).bind SchemaNode.normalDescription

/-- The default literal of a schema or of its target. -/
def defaultOf (index : SchemaIndex) (schema : Schema) : Option String :=
  (index.nodeOf schema).bind Literal.ofDefault?

/-- The node whose generated type a field of this schema has: the target of a
reference, also of one that is a node's only parent. -/
def delegateOf (index : SchemaIndex) : Schema → Option SchemaNode
  | .reference target => index.resolve target
  | .inline node =>
      match node.soleParentReference? with
      | some target => index.resolve target
      | none => some node

/-- True when a field of this schema delegates to a type with annotations. -/
def isAnnotatable (index : SchemaIndex) (schema : Schema) : Bool :=
  ((index.delegateOf schema).map SchemaNode.isAnnotated).getD false

end SchemaIndex

end SchemaCompiler
