import SchemaCompiler.TypeExpr
import SchemaCompiler.Json.Text

/-!
Contract: generated type definitions.

Owns:
- `FieldDefinition` with its serialization tag, and `TypeDefinition`, which is
  a record, an alias or an enumeration;
- `Annotation`, one generated documentation or default line, and
  `Annotation.lines`, the lines of a description and a list of fields;
- the constructors of each shape, which keep the annotation lines in step with
  the fields.

Does not own: how schemas become definitions.
-/

namespace SchemaCompiler

structure FieldTag where
  name : String
  optional : Bool
deriving DecidableEq, Repr

namespace FieldTag

/-- The part of the tag between its quotes. -/
def body (tag : FieldTag) : String :=
  if tag.optional then tag.name ++ ",optional" else tag.name

/-- The tag as written behind a field. -/
def text (tag : FieldTag) : String :=
  "pulumi:\"" ++ tag.body ++ "\""

end FieldTag

structure FieldDefinition where
  name : String
  exportedName : String
  type : TypeExpr
  optional : Bool
  tag : FieldTag
  description : Option String
  default : Option String
  annotate : Bool
deriving DecidableEq, Repr

/-- One generated line about a type or about one of its fields. -/
inductive Annotation where
  | describeType (description : String)
  | describeField (field : String) (description : String)
  | setDefault (field : String) (literal : String)
deriving DecidableEq, Repr

namespace Annotation

def text : Annotation → String
  | .describeType description => "a.Describe(&dto, " ++ Json.quoted description ++ ")"
  | .describeField field description =>
      "a.Describe(&dto." ++ field ++ ", " ++ Json.quoted description ++ ")"
  | .setDefault field literal => "a.SetDefault(&dto." ++ field ++ ", " ++ literal ++ ")"

/-- The lines of one field: its description before its default. -/
def ofField (field : FieldDefinition) : List Annotation :=
  (field.description.map (describeField field.exportedName)).toList ++
    (field.default.map (setDefault field.exportedName)).toList

/-- The lines of a description, then those of the fields in order. -/
def lines (description : Option String) (fields : List FieldDefinition) : List Annotation :=
  (description.map describeType).toList ++ fields.flatMap ofField

end Annotation

structure EnumConstant where
  name : String
  constantName : String
  literal : String
deriving DecidableEq, Repr

/-- What a definition is. A distinct alias introduces a type of its own. -/
inductive TypeShape where
  | record (fields : List FieldDefinition)
  | alias (target : TypeExpr) (distinct : Bool)
  | enumeration (base : TypeExpr) (constants : List EnumConstant)
deriving DecidableEq, Repr

structure TypeDefinition where
  name : String
  shape : TypeShape
  description : Option String
  annotate : Bool
  annotations : List Annotation
deriving DecidableEq, Repr

namespace TypeDefinition

def record (name : String) (description : Option String) (fields : List FieldDefinition) :
    TypeDefinition :=
  { name, shape := .record fields, description, annotate := true
    annotations := Annotation.lines description fields }

/-- A pass-through alias. -/
def transparentAlias (name : String) (target : TypeExpr) : TypeDefinition :=
  { name, shape := .alias target false, description := none, annotate := false
    annotations := [] }

/-- A documented type of its own over `target`. -/
def distinctAlias (name : String) (target : TypeExpr) (description : String) : TypeDefinition :=
  { name, shape := .alias target true, description := some description, annotate := true
    annotations := Annotation.lines (some description) [] }

def enumeration (name : String) (base : TypeExpr) (constants : List EnumConstant) :
    TypeDefinition :=
  { name, shape := .enumeration base constants, description := none, annotate := false
    annotations := [] }

/-- The fields of a record; other shapes have none. -/
def fields (definition : TypeDefinition) : List FieldDefinition :=
  match definition.shape with
  | .record fields => fields
  | _ => []

/-- The types that a definition is written with. -/
def types (definition : TypeDefinition) : List TypeExpr :=
  match definition.shape with
  | .record fields => fields.map FieldDefinition.type
  | .alias target _ => [target]
  | .enumeration base _ => [base]

/-- The generated names that a definition mentions, in order. -/
def namedLeaves (definition : TypeDefinition) : List String :=
  definition.types.flatMap TypeExpr.namedLeaves

@[simp] theorem namedLeaves_record (name : String) (description : Option String)
    (fields : List FieldDefinition) :
    (record name description fields).namedLeaves =
      fields.flatMap fun field => field.type.namedLeaves := by
  simp [namedLeaves, types, record, List.flatMap_map]

@[simp] theorem namedLeaves_transparentAlias (name : String) (target : TypeExpr) :
    (transparentAlias name target).namedLeaves = target.namedLeaves := by
  simp [namedLeaves, types, transparentAlias]

@[simp] theorem namedLeaves_distinctAlias (name : String) (target : TypeExpr)
    (description : String) :
    (distinctAlias name target description).namedLeaves = target.namedLeaves := by
  simp [namedLeaves, types, distinctAlias]

end TypeDefinition

end SchemaCompiler
