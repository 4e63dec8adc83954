import SchemaCompiler.Schema.Basic
import SchemaCompiler.Json.Text
import SchemaCompiler.TypeExpr

/-!
Contract: literals written into generated code.

Owns:
- the base type of an enumeration declared with a primitive;
- `Literal.ofScalar`, a value as a literal of a base type;
- the default literals of schema nodes and of manifest overrides.

Lists, mappings and null have no default literal.

Does not own: defaults found through references (`SchemaCompiler.Projection`).
-/

namespace SchemaCompiler

/-- The base type of an enumeration, and of a default, declared with a
primitive. -/
def Primitive.literalBase : Option Primitive → TypeExpr
  | some .integer => .int
  | some .number => .float
  | some .boolean => .boolean
  | _ => .string

namespace Literal

/-- A value as a literal of type `base`: text is quoted, and under a text base
every value is. -/
def ofScalar (base : TypeExpr) (value : Json) : String :=
  match base, value with
  | .string, value => Json.quoted value.scalarText
  | _, .string text => Json.quoted text
  | _, value => value.scalarText

/-- The literal of a scalar; other values have none. -/
def ofScalar? (base : TypeExpr) (value : Json) : Option String :=
  if value.isScalar then some (ofScalar base value) else none

/-- The default literal declared on a node. -/
def ofDefault? (node : SchemaNode) : Option String :=
  node.default.bind (ofScalar? (Primitive.literalBase node.type))

/-- The default literal of an override with a given type text. Only a text
type, optional or not, quotes every value. -/
def ofOverride? (typeText : String) (value : Option Json) : Option String :=
  let base : TypeExpr := if withoutAsterisk typeText = "string" then .string else .any
  value.bind (ofScalar? base)

end Literal

end SchemaCompiler
