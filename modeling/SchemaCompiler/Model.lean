import SchemaCompiler.Synthesis.Catalog
import SchemaCompiler.Resource

/-!
Contract: the resolved model handed on for emission.

Owns:
- `danglingReferences`, the generated names that are mentioned and nowhere
  defined;
- `CompiledModel` and `SchemaIndex.compile`.

The model depends on nothing but the index and the manifest: types follow the
index, each followed by its helper types, and resources follow the manifest.

Does not own: the written form of a model (`SchemaCompiler.Model.Rendering`).
-/

namespace SchemaCompiler

/-- The elements that are not among `seen`, each at its first occurrence. -/
def firstOccurrences (seen : List String) : List String → List String
  | [] => []
  | name :: rest =>
      if name ∈ seen then firstOccurrences seen rest
      else name :: firstOccurrences (name :: seen) rest

theorem mem_firstOccurrences_iff {seen names : List String} {name : String} :
    name ∈ firstOccurrences seen names ↔ name ∈ names ∧ name ∉ seen := by
  induction names generalizing seen with
  | nil => simp [firstOccurrences]
  | cons head tail inductionHypothesis =>
      by_cases found : head ∈ seen
      · simp only [firstOccurrences, found, if_true, inductionHypothesis, List.mem_cons]
        constructor
        · exact fun kept => ⟨Or.inr kept.1, kept.2⟩
        · rintro ⟨rfl | inTail, fresh⟩
          · exact absurd found fresh
          · exact ⟨inTail, fresh⟩
      · simp only [firstOccurrences, found, if_false, List.mem_cons, inductionHypothesis, not_or]
        by_cases isHead : name = head
        · simp [isHead, found]
        · simp [isHead]

/-- The names mentioned by types and by resource fields, in order. -/
def mentionedNames (types : List TypeDefinition) (resources : List ResourceDefinition) :
    List String :=
  types.flatMap TypeDefinition.namedLeaves ++
    resources.flatMap fun resource =>
      resource.fields.flatMap fun field => field.type.namedLeaves

/-- The names of types and of resources. -/
def definedNames (types : List TypeDefinition) (resources : List ResourceDefinition) :
    List String :=
  types.map TypeDefinition.name ++ resources.map ResourceDefinition.name

/-- The mentioned names that neither a type nor a resource defines, in order of
first mention. -/
def danglingReferences (types : List TypeDefinition) (resources : List ResourceDefinition) :
    List String :=
  firstOccurrences (definedNames types resources) (mentionedNames types resources)

theorem mem_danglingReferences_iff {types : List TypeDefinition}
    {resources : List ResourceDefinition} {name : String} :
    name ∈ danglingReferences types resources ↔
      name ∈ mentionedNames types resources ∧ name ∉ definedNames types resources :=
  mem_firstOccurrences_iff

/-- A resolved model. -/
structure CompiledModel where
  sdkVersion : Option String
  types : List TypeDefinition
  resources : List ResourceDefinition
  dangling : List String
deriving DecidableEq, Repr

/-- The model of an index under a manifest. Schemas that are resources are not
emitted as types. -/
def SchemaIndex.compile (index : SchemaIndex) (manifest : ControlManifest) : CompiledModel :=
  let types := index.synthesizeTypes manifest.resourceNames
  let resources := index.assembleResources manifest
  { sdkVersion := manifest.sdkVersion
    types := types
    resources := resources
    dangling := danglingReferences types resources }

end SchemaCompiler
