import SchemaCompiler.Definition
import SchemaCompiler.Literal
import SchemaCompiler.Naming

/-!
Contract: enumerations paired with companion names.

Owns:
- `SchemaNode.enumName`, the name an enumeration is generated under;
- `SchemaNode.enumeration?`, the definition of a node whose literals all have a
  companion name.

Does not own: enumerations without companions, which are typed like any other
node.
-/

namespace SchemaCompiler.SchemaNode

/-- The name of a node's enumeration: the canonical form of `name`, or, when
that is empty, the type part of the first companion name. -/
def enumName (name : String) (node : SchemaNode) : String :=
  let exported := Naming.exportedName name
  if exported = "" then Naming.enumTypeName (node.enumNames.headD "") else exported

/-- The constants of an enumeration in order, one for each literal. -/
def enumConstants (typeName : String) (base : TypeExpr) (node : SchemaNode) : List EnumConstant :=
  List.zipWith
    (fun value companion =>
      { name := companion
        constantName := Naming.enumConstantName typeName companion
        literal := Literal.ofScalar base value })
    node.enumValues node.enumNames

/-- The enumeration a node defines under `name`. A node without a companion for
every literal defines none, nor does one for which no name is left. -/
def enumeration? (name : String) (node : SchemaNode) : Option TypeDefinition :=
  if node.isEnum then
    let typeName := node.enumName name
    let base := Primitive.literalBase node.type
    if typeName = "" then none
    else some (.enumeration typeName base (node.enumConstants typeName base))
  else none

theorem enumeration?_eq_some_iff {name : String} {node : SchemaNode}
    {definition : TypeDefinition} :
    node.enumeration? name = some definition ↔
      node.isEnum = true ∧ node.enumName name ≠ "" ∧
        .enumeration (node.enumName name) (Primitive.literalBase node.type)
          (node.enumConstants (node.enumName name) (Primitive.literalBase node.type)) =
          definition := by
  unfold enumeration?
  by_cases enumerates : node.isEnum = true
  · by_cases nameless : node.enumName name = "" <;> simp [enumerates, nameless]
  · simp [enumerates]

end SchemaCompiler.SchemaNode
