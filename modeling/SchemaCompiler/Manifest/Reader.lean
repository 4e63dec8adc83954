import SchemaCompiler.Manifest.Override
import SchemaCompiler.Yaml.Untyped

/-!
Contract: control manifests read from their text form.

Owns:
- `ControlManifest.parse`, which reads the known fields of a manifest straight
  from the nodes of its text;
- `ManifestFault`, which tells a value that is no field override from every
  other fault.

A text slot takes the source text of any scalar, whatever its type. A known key
given twice is a fault, and so is a value of the wrong shape; other keys are
passed over. Faults are met in the order of the text.

Does not own: the shapes of field overrides (`SchemaCompiler.Manifest.Override`).
-/

namespace SchemaCompiler

inductive ManifestFault where
  | malformed
  | override (fault : OverrideFault)
deriving Repr

open Yaml

abbrev ManifestDecoding (α : Type) := Decoding ManifestFault α

namespace ManifestDecoding

/-- The node itself, or the one an alias stands for. -/
def resolved (node : Node) : ManifestDecoding Node :=
  Decoding.resolved .malformed node

def text (node : Node) : ManifestDecoding String :=
  Decoding.text .malformed node

/-- The resolved node, unless it is null: an empty plain scalar, a plain
spelling of null, or one under the null tag. -/
def unlessNull (node : Node) : ManifestDecoding (Option Node) := do
  let node ← resolved node
  match node with
  | .scalar scalar =>
      if scalar.style ≠ .plain then return some node
      else
        match scalar.tag with
        | some tag =>
            if tag ≠ .standard "null" then return some node
            else if isNullText scalar.text then return none
            else throw .malformed
        | none =>
            if scalar.text = "" || isNullText scalar.text then return none else return some node
  | .cut => throw .malformed
  | _ => return some node

/-- A text, or none for null. -/
def optionalText (node : Node) : ManifestDecoding (Option String) := do
  match ← unlessNull node with
  | some present => return some (← text present)
  | none => return none

/-- A truth value: a plain scalar, or a literal one under the boolean tag. -/
def truth (node : Node) : ManifestDecoding Bool := do
  match ← resolved node with
  | .scalar scalar =>
      let admitted :=
        scalar.style = .plain ||
          (scalar.style = .literal && scalar.tag = some (.standard "bool"))
      match admitted, boolOfText? scalar.text with
      | true, some value => return value
      | _, _ => throw .malformed
  | _ => throw .malformed

/-- True for a plain scalar without text, which stands for an empty collection. -/
def isEmptyScalar : Node → Bool
  | .scalar scalar => scalar.style = .plain && scalar.text = ""
  | _ => false

def entries (node : Node) : ManifestDecoding (List (Node × Node)) := do
  match ← resolved node with
  | .mapping _ entries => return entries
  | other => if isEmptyScalar other then return [] else throw .malformed

def items (node : Node) : ManifestDecoding (List Node) := do
  match ← resolved node with
  | .sequence _ items => return items
  | other => if isEmptyScalar other then return [] else throw .malformed

mutual

/-- True when a node is readable to its end. -/
def isSound : Node → Bool
  | .scalar _ | .alias _ => true
  | .sequence _ items => areSound items
  | .mapping _ entries => areSoundEntries entries
  | .cut => false

def areSound : List Node → Bool
  | [] => true
  | node :: rest => isSound node && areSound rest

def areSoundEntries : List (Node × Node) → Bool
  | [] => true
  | (key, content) :: rest => isSound key && isSound content && areSoundEntries rest

end

/-- Passes over a node without a look at what it means. -/
def ignore (node : Node) : ManifestDecoding Unit :=
  if isSound node then return () else throw .malformed

/-- Reads the entries of a record in order. `known` reads the value of a known
key into the record; other keys are passed over. -/
def record {α : Type} (known : String → Option (α → Node → ManifestDecoding α)) (seen : List String)
    (start : α) : List (Node × Node) → ManifestDecoding α
  | [] => return start
  | (key, content) :: rest => do
      let name ← text key
      match known name with
      | none => do
          ignore content
          record known seen start rest
      | some read =>
          if name ∈ seen then throw .malformed
          else do
            let extended ← read start content
            record known (name :: seen) extended rest

/-! ## The parts of a manifest -/

/-- The collections around a field override. -/
def overrideDepth : Nat := 4

def fieldOverride (node : Node) : ManifestDecoding FieldOverride := do
  let value ← Decoding.value .malformed (nestingLimit - overrideDepth) node
  match FieldOverride.ofJson value with
  | .ok field => return field
  | .error fault => throw (.override fault)

def fieldOverrides (node : Node) : ManifestDecoding (List FieldOverride) := do
  (← items node).mapM fieldOverride

/-- The known fields of a resource. -/
def resourceField (name : String) :
    Option (ResourceSpec → Node → ManifestDecoding ResourceSpec) :=
  match name with
  | "package" => some fun spec node => return { spec with package := ← text node }
  | "apiPackage" => some fun spec node => return { spec with apiPackage := ← text node }
  | "withoutWorkspace" =>
      some fun spec node => return { spec with withoutWorkspace := ← truth node }
  | "withCustomGenerators" =>
      some fun spec node => return { spec with withCustomGenerators := ← truth node }
  | "input" => some fun spec node => return { spec with input := ← fieldOverrides node }
  | "output" => some fun spec node => return { spec with output := ← fieldOverrides node }
  | _ => none

def resource (node : Node) : ManifestDecoding ResourceSpec := do
  record resourceField [] {} (← entries node)

/-- The resources by name; the last one of a repeated name stays at its first
position. -/
def resources (node : Node) : ManifestDecoding (OrderedTable ResourceSpec) := do
  (← entries node).foldlM (fun table (key, content) => do
    let name ← text key
    return table.insert name (← resource content)) {}

/-- The known fields of a manifest. -/
def manifestField (name : String) :
    Option (ControlManifest → Node → ManifestDecoding ControlManifest) :=
  match name with
  | "sdkVersion" =>
      some fun manifest node => return { manifest with sdkVersion := ← optionalText node }
  | "resources" =>
      some fun manifest node => return { manifest with resources := ← resources node }
  | _ => none

/-- A whole manifest; null is the empty one. -/
def manifest (node : Node) : ManifestDecoding ControlManifest := do
  match ← unlessNull node with
  | none => return {}
  | some present => record manifestField [] {} (← entries present)

end ManifestDecoding

def ControlManifest.parse (text : String) : Except ManifestFault ControlManifest :=
  (YamlDocument.ofText text).decode .malformed {} ManifestDecoding.manifest

end SchemaCompiler
