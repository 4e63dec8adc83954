import SchemaCompiler.Schema.Reference
import SchemaCompiler.Json.Basic

/-!
Contract: schemas as the compiler reads them.

Owns:
- `Schema`, a reference or an inline node, and `SchemaNode`, one node with its
  keywords;
- the structural questions asked of a node: union, composite, single parent,
  enumeration, simple alias, map alias;
- `NodeKind`, the classification by the first keyword that decides it.

Does not own: decoding (`SchemaCompiler.Schema.Decode`) or references to named
schemas (`SchemaCompiler.Index`).
-/

namespace SchemaCompiler

inductive Primitive where
  | string
  | integer
  | number
  | boolean
  | object
  | array
deriving DecidableEq, Repr

namespace Primitive

def keyword : Primitive → String
  | .string => "string"
  | .integer => "integer"
  | .number => "number"
  | .boolean => "boolean"
  | .object => "object"
  | .array => "array"

/-- The types in the order of their declaration. -/
def all : List Primitive := [.string, .integer, .number, .boolean, .object, .array]

def ofKeyword? (word : String) : Option Primitive :=
  all.find? fun primitive => primitive.keyword = word

end Primitive

mutual

/-- A schema: a reference to a named schema, or an inline node. -/
inductive Schema where
  | reference (target : Reference)
  | inline (node : SchemaNode)
deriving Repr

/-- One schema node. A keyword that is absent has its empty value. -/
structure SchemaNode where
  type : Option Primitive := none
  title : Option String := none
  description : Option String := none
  properties : List (String × Schema) := []
  required : List String := []
  items : Option Schema := none
  additionalProperties : Option AdditionalProperties := none
  enumValues : List Json := []
  enumNames : List String := []
  default : Option Json := none
  allOf : List Schema := []
  anyOf : List Schema := []
  oneOf : List Schema := []
deriving Repr

/-- What an object allows beside its named properties. -/
inductive AdditionalProperties where
  | freeForm (allowed : Bool)
  | schema (value : Schema)
deriving Repr

end

instance : Inhabited SchemaNode := ⟨{}⟩

/-- The keyword that decides what a node is, in order of precedence. -/
inductive NodeKind where
  | anyOf
  | oneOf
  | allOf
  | declared (type : Primitive)
  | untyped
deriving DecidableEq, Repr

namespace SchemaNode

/-- Classifies a node: alternatives before parents before the declared type. -/
def kind (node : SchemaNode) : NodeKind :=
  if !node.anyOf.isEmpty then .anyOf
  else if !node.oneOf.isEmpty then .oneOf
  else if !node.allOf.isEmpty then .allOf
  else
    match node.type with
    | some primitive => .declared primitive
    | none => .untyped

def isUnion (node : SchemaNode) : Bool :=
  !node.anyOf.isEmpty || !node.oneOf.isEmpty

/-- True when the node has alternatives or parents. -/
def isComposite (node : SchemaNode) : Bool :=
  node.isUnion || !node.allOf.isEmpty

/-- The alternatives; `oneOf` counts only without `anyOf`. -/
def unionMembers (node : SchemaNode) : List Schema :=
  if node.anyOf.isEmpty then node.oneOf else node.anyOf

/-- The only parent of a node that is no union. -/
def soleParent? (node : SchemaNode) : Option Schema :=
  match node.allOf with
  | [parent] => if node.isUnion then none else some parent
  | _ => none

/-- The reference to the only parent of a node, when the parent is one. -/
def soleParentReference? (node : SchemaNode) : Option Reference :=
  match node.soleParent? with
  | some (.reference target) => some target
  | _ => none

/-- True when the node declares a named property. -/
def hasProperties (node : SchemaNode) : Bool :=
  !node.properties.isEmpty

/-- True when every literal of a nonempty enumeration has a companion name. -/
def isEnum (node : SchemaNode) : Bool :=
  !node.enumValues.isEmpty && node.enumNames.length == node.enumValues.length

/-- True when `name` is listed as required. -/
def isRequired (node : SchemaNode) (name : String) : Bool :=
  node.required.contains name

/-- True when the node does nothing but name a primitive or an array type. -/
def isSimpleAlias (node : SchemaNode) : Bool :=
  !(node.hasProperties || node.additionalProperties.isSome || node.isComposite) &&
    match node.type with
    | some .object | none => false
    | some _ => true

/-- True when the node has no property, no map policy and no composition. -/
def isEmptySchema (node : SchemaNode) : Bool :=
  !node.hasProperties && node.additionalProperties.isNone && !node.isComposite

/-- True for nodes that may be mappings: declared objects and untyped ones. -/
def isObjectLike (node : SchemaNode) : Bool :=
  match node.type with
  | none | some .object => true
  | some _ => false

/-- True when the node allows arbitrary further entries, of any type or of the
given one. -/
def allowsEntries (node : SchemaNode) : Bool :=
  match node.additionalProperties with
  | some (.schema _) | some (.freeForm true) => true
  | _ => false

/-- True when the node is a mapping from text to values and nothing else. -/
def isMapAlias (node : SchemaNode) : Bool :=
  node.isObjectLike && node.allowsEntries && !node.hasProperties

/-- True when a type with annotations of its own is generated for the node. -/
def isAnnotated (node : SchemaNode) : Bool :=
  !(node.isEnum || node.isMapAlias) &&
    (node.isUnion || !node.allOf.isEmpty || node.hasProperties)

end SchemaNode

end SchemaCompiler
