import SchemaCompiler.Manifest.Basic
import SchemaCompiler.Definition
import SchemaCompiler.Projection
import SchemaCompiler.Naming

/-!
Contract: resources, which join a manifest with the schemas.

Owns:
- `SchemaIndex.controlType`, the type name of an override that gives none;
- `SchemaIndex.resourceField`, the field of one override;
- `SchemaIndex.assembleResources`, the definitions of all resources that have a
  package, in declaration order.

Does not own: the check for names without a definition
(`SchemaCompiler.Model`).
-/

namespace SchemaCompiler

/-- A resource ready for emission. -/
structure ResourceDefinition where
  name : String
  package : String
  apiPackage : String
  apiPackageId : String
  withoutWorkspace : Bool
  withCustomGenerators : Bool
  inputs : List FieldDefinition
  outputs : List FieldDefinition
  description : Option String
  inputAnnotations : List Annotation
  outputAnnotations : List Annotation
deriving DecidableEq, Repr

namespace ResourceDefinition

/-- All fields, inputs before outputs. -/
def fields (resource : ResourceDefinition) : List FieldDefinition :=
  resource.inputs ++ resource.outputs

/-- The last segment of a package path. -/
def lastSegment (path : String) : String :=
  String.ofList (path.toList.reverse.takeWhile (· ≠ '/')).reverse

end ResourceDefinition

/-- Which way a resource field is passed. -/
inductive Direction where
  | input
  | output
deriving DecidableEq, Repr

/-- The only input that is required when nothing else says so. -/
def requiredInput : String := "Spec"

namespace SchemaIndex

/-- The property behind a field of a resource: the one with the field's
lower-camel name on the resource schema, else on its first parent that has one. -/
def resourceProperty (index : SchemaIndex) (resource field : String) : Option Schema := do
  let node ← index.lookup resource
  let property := Naming.lowerCamel field
  match Entries.find? node.properties property with
  | some schema => return schema
  | none =>
      (node.allOf.filterMap index.nodeOf).findSome? fun parent =>
        Entries.find? parent.properties property

/-- The schema that a property refers to, directly or through its only parent. -/
def referredName : Schema → Option String
  | .reference target => some target.schemaName
  | .inline node => node.soleParentReference?.map Reference.schemaName

/-- The name of the type of a field without an explicit one: that of the schema
its property refers to, else of a schema called like the field, else of one
called like resource and field together, else the name of the field itself. -/
def controlType (index : SchemaIndex) (resource field : String) : String :=
  match (index.resourceProperty resource field).bind referredName with
  | some name => Naming.exportedName name
  | none =>
      if (index.lookup field).isSome then Naming.exportedName field
      else if (index.lookup (resource ++ field)).isSome then
        Naming.exportedName (resource ++ field)
      else Naming.exportedName field

/-- Whether a field may be left out. An explicit type says so itself. -/
def isOptionalField (field : FieldOverride) (direction : Direction) : Bool :=
  match field.type, direction with
  | some text, _ => isOptionalText text
  | none, .input => field.name ≠ requiredInput
  | none, .output => false

/-- The type of a field: the explicit one as written, or a named one. -/
def fieldType (index : SchemaIndex) (resource : String) (field : FieldOverride)
    (optional : Bool) : TypeExpr :=
  match field.type with
  | some text => .verbatim text
  | none =>
      let named : TypeExpr := .named (index.controlType resource field.name)
      if optional then named.makeOptional else named

/-- The description, the default and the annotate flag of a field. A field that
gives its name alone takes them from its property; any other field is annotated
only with a description of its own. -/
def fieldNotes (index : SchemaIndex) (resource : String) (field : FieldOverride) :
    Option String × Option String × Bool :=
  if field.hasOverride then
    match field.description with
    | some text =>
        (Text.normalized? text,
          Literal.ofOverride? (field.type.getD "") field.default, true)
    | none => (none, none, false)
  else
    let property := index.resourceProperty resource field.name
    (property.bind index.descriptionOf, property.bind index.defaultOf, true)

def resourceField (index : SchemaIndex) (resource : String) (direction : Direction)
    (field : FieldOverride) : FieldDefinition :=
  let optional := isOptionalField field direction
  let (description, default, annotate) := index.fieldNotes resource field
  { name := field.name
    exportedName := Naming.exportedName field.name
    type := index.fieldType resource field optional
    optional := optional
    tag := ⟨Naming.lowerCamel field.name, optional⟩
    description := description
    default := default
    annotate := annotate }

/-- One resource. Annotation lines are made for annotated fields only. -/
def assembleResource (index : SchemaIndex) (name : String) (spec : ResourceSpec) :
    ResourceDefinition :=
  let inputs := spec.input.map (index.resourceField name .input)
  let outputs := spec.output.map (index.resourceField name .output)
  { name := name
    package := spec.package
    apiPackage := spec.apiPackage
    apiPackageId := ResourceDefinition.lastSegment spec.apiPackage
    withoutWorkspace := spec.withoutWorkspace
    withCustomGenerators := spec.withCustomGenerators
    inputs := inputs
    outputs := outputs
    description := (index.lookup name).bind SchemaNode.normalDescription
    inputAnnotations := Annotation.lines none (inputs.filter FieldDefinition.annotate)
    outputAnnotations := Annotation.lines none (outputs.filter FieldDefinition.annotate) }

/-- All resources with a package, in declaration order. -/
def assembleResources (index : SchemaIndex) (manifest : ControlManifest) :
    List ResourceDefinition :=
  (manifest.resources.entries.filter fun entry => entry.2.package ≠ "").map fun entry =>
    index.assembleResource entry.1 entry.2

end SchemaIndex

end SchemaCompiler
