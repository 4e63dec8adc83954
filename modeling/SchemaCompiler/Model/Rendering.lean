import SchemaCompiler.Model
import SchemaCompiler.Json.Text
import SchemaCompiler.Yaml.Block

/-!
Contract: the written form of a model.

Owns:
- the dynamic value of each definition, its keys in a fixed order and absent
  texts as null;
- `CompiledModel.render`, the text in either output format, which ends with a
  line break.

Types, tags and annotations are handed on as text only.

Does not own: the layout of dynamic values (`SchemaCompiler.Json.Text`,
`SchemaCompiler.Yaml.Block`).
-/

namespace SchemaCompiler

/-- An optional text; null stands for none. -/
def Json.ofText? (text : Option String) : Json :=
  (text.map Json.string).getD .null

def FieldDefinition.toJson (field : FieldDefinition) : Json :=
  .object
    [("name", .string field.name),
     ("exportedName", .string field.exportedName),
     ("type", .string field.type.text),
     ("optional", .bool field.optional),
     ("tag", .string field.tag.text),
     ("description", .ofText? field.description),
     ("default", .ofText? field.default),
     ("annotate", .bool field.annotate)]

/-- The value of a list of fields. -/
def FieldDefinition.listToJson (fields : List FieldDefinition) : Json :=
  .array (fields.map toJson)

/-- The value of a list of annotations: the generated lines. -/
def Annotation.listToJson (annotations : List Annotation) : Json :=
  .array (annotations.map fun annotation => .string annotation.text)

def EnumConstant.toJson (constant : EnumConstant) : Json :=
  .object
    [("name", .string constant.name),
     ("constName", .string constant.constantName),
     ("literal", .string constant.literal)]

/-- The value of a shape, marked with its kind. -/
def TypeShape.toJson : TypeShape → Json
  | .record fields =>
      .object [("kind", .string "fields"), ("fields", FieldDefinition.listToJson fields)]
  | .alias target distinct =>
      .object
        [("kind", .string "alias"),
         ("target", .string target.text),
         ("distinct", .bool distinct)]
  | .enumeration base constants =>
      .object
        [("kind", .string "enum"),
         ("base", .string base.text),
         ("values", .array (constants.map EnumConstant.toJson))]

def TypeDefinition.toJson (definition : TypeDefinition) : Json :=
  .object
    [("name", .string definition.name),
     ("shape", definition.shape.toJson),
     ("description", .ofText? definition.description),
     ("annotate", .bool definition.annotate),
     ("annotations", Annotation.listToJson definition.annotations)]

def ResourceDefinition.toJson (resource : ResourceDefinition) : Json :=
  .object
    [("name", .string resource.name),
     ("package", .string resource.package),
     ("apiPackage", .string resource.apiPackage),
     ("apiPackageId", .string resource.apiPackageId),
     ("withoutWorkspace", .bool resource.withoutWorkspace),
     ("withCustomGenerators", .bool resource.withCustomGenerators),
     ("inputs", FieldDefinition.listToJson resource.inputs),
     ("outputs", FieldDefinition.listToJson resource.outputs),
     ("description", .ofText? resource.description),
     ("inputAnnotations", Annotation.listToJson resource.inputAnnotations),
     ("outputAnnotations", Annotation.listToJson resource.outputAnnotations)]

inductive OutputFormat where
  | json
  | yaml
deriving DecidableEq, Repr

namespace OutputFormat

/-- The formats in the order of their declaration. -/
def all : List OutputFormat := [.json, .yaml]

def word : OutputFormat → String
  | .json => "json"
  | .yaml => "yaml"

def ofWord? (text : String) : Option OutputFormat :=
  all.find? fun format => format.word = text

end OutputFormat

namespace CompiledModel

def toJson (model : CompiledModel) : Json :=
  .object
    [("sdkVersion", .ofText? model.sdkVersion),
     ("types", .array (model.types.map TypeDefinition.toJson)),
     ("resources", .array (model.resources.map ResourceDefinition.toJson)),
     ("dangling", .array (model.dangling.map Json.string))]

def render (model : CompiledModel) : OutputFormat → String
  | .json => model.toJson.pretty ++ "\n"
  | .yaml => model.toJson.blockYaml

end CompiledModel

end SchemaCompiler
