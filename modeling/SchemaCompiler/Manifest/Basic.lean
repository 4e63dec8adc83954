import SchemaCompiler.Entries
import SchemaCompiler.Json.Basic

/-!
Contract: control manifests, which choose the schemas that become resources.

Owns:
- `FieldOverride`, one input or output field as a manifest declares it;
- `ResourceSpec` and `ControlManifest`, resources in declaration order.

Does not own: reading a manifest (`SchemaCompiler.Manifest.Reader`).
-/

namespace SchemaCompiler

/-- A field override. Apart from the name, absent parts are resolved from the
schemas. -/
structure FieldOverride where
  name : String
  type : Option String := none
  description : Option String := none
  default : Option Json := none
deriving Repr

namespace FieldOverride

/-- An override that gives a name alone. -/
def named (name : String) : FieldOverride := { name }

/-- True when something beside the name is given. -/
def hasOverride (field : FieldOverride) : Bool :=
  field.type.isSome || field.description.isSome || field.default.isSome

end FieldOverride

/-- One resource entry. A resource without a package is not generated. -/
structure ResourceSpec where
  package : String := ""
  apiPackage : String := ""
  withoutWorkspace : Bool := false
  withCustomGenerators : Bool := false
  input : List FieldOverride := []
  output : List FieldOverride := []
deriving Repr

/-- A control manifest. -/
structure ControlManifest where
  sdkVersion : Option String := none
  resources : OrderedTable ResourceSpec := {}

namespace ControlManifest

/-- The names of the declared resources, in order. -/
def resourceNames (manifest : ControlManifest) : List String :=
  manifest.resources.keys

end ControlManifest

end SchemaCompiler
