import SchemaCompiler.Model
import SchemaCompiler.Proofs.Sharing

/-!
Contract: why a model mentions names that it does not define.

Owns:
- `SchemaIndex.Unresolved`, the fields whose type name no schema stands behind;
- `DanglingReason`, the complete list of reasons: a name without identifier
  characters, a schema that is a resource, a schema that fails, and a bare
  field that nothing resolves;
- that every name mentioned in types (`declares_or_mem_of_mentioned`) and in
  resources (`controlType_cases`) is defined or has one of these reasons.

Does not own: the list of dangling names itself (`SchemaCompiler.Model`).
-/

namespace SchemaCompiler

namespace SchemaIndex

/-- No schema stands behind the type name of a bare field: its property refers
to a schema that does not resolve, or its property refers to nothing and neither
candidate name resolves. -/
inductive Unresolved (index : SchemaIndex) (resource field : String) : Prop where
  | property {name : String}
      (refers : (index.resourceProperty resource field).bind referredName = some name)
      (missing : index.lookup name = none)
  | candidates (silent : (index.resourceProperty resource field).bind referredName = none)
      (missing : index.lookup field = none)
      (missingCompound : index.lookup (resource ++ field) = none)

end SchemaIndex

/-- Why a model of the index under the manifest mentions a name without defining
it. -/
inductive DanglingReason (index : SchemaIndex) (manifest : ControlManifest) (leaf : String) :
    Prop where
  | nameless (empty : leaf = "")
  | resource {schema : String} {node : SchemaNode} (found : index.lookup schema = some node)
      (canonical : leaf = node.canonicalName schema)
      (declared : schema ∈ manifest.resourceNames)
  | failed {schema : String} {node : SchemaNode} (found : index.lookup schema = some node)
      (canonical : leaf = node.canonicalName schema) (fails : index.Fails schema)
  | field {resource : String} {spec : ResourceSpec} {field : FieldOverride}
      (declared : (resource, spec) ∈ manifest.resources.entries) (packaged : spec.package ≠ "")
      (listed : field ∈ spec.input ++ spec.output) (bare : field.type = none)
      (unresolved : index.Unresolved resource field.name)
      (named : leaf = index.controlType resource field.name)

namespace SchemaIndex

variable {index : SchemaIndex}

/-! ## Generated types -/

theorem mem_names_synthesizeTypes {skip : List String} {leaf : String} :
    leaf ∈ (index.synthesizeTypes skip).map TypeDefinition.name ↔
      ∃ schema ∈ index.names, schema ∉ skip ∧
        leaf ∈ (index.emittedAlone schema).map TypeDefinition.name := by
  rw [synthesizeTypes_eq_firstOfEachName, mem_names_firstOfEachName]
  constructor
  · rintro ⟨member, -⟩
    obtain ⟨definition, emitted, rfl⟩ := List.mem_map.1 member
    obtain ⟨schema, listed, own⟩ := List.mem_flatMap.1 emitted
    obtain ⟨declared, outside⟩ := List.mem_filter.1 listed
    exact ⟨schema, declared, by simpa using outside, List.mem_map_of_mem own⟩
  · rintro ⟨schema, declared, outside, member⟩
    obtain ⟨definition, own, rfl⟩ := List.mem_map.1 member
    refine ⟨List.mem_map_of_mem (List.mem_flatMap.2 ⟨schema, ?_, own⟩), by simp⟩
    exact List.mem_filter.2 ⟨declared, by simpa using outside⟩

/-- A schema that builds under a name is generated unless it is left out. -/
theorem canonicalName_mem_synthesizeTypes {skip : List String} {schema : String}
    {node : SchemaNode} {made : SynthesizedType} (found : index.lookup schema = some node)
    (outside : schema ∉ skip) (built : index.buildAlone schema node = .ok made)
    (named : node.canonicalName schema ≠ "") :
    node.canonicalName schema ∈ (index.synthesizeTypes skip).map TypeDefinition.name := by
  have canonical : made.definition.name = node.canonicalName schema :=
    (account_of_buildAlone built).named
  have own : made.definition ∈ index.emittedAlone schema := by
    rw [emittedAlone_of_ok found built]
    simp [SynthesizedType.emitted, canonical, named]
  rw [mem_names_synthesizeTypes, ← canonical]
  exact ⟨schema, mem_names_of_lookup found, outside, List.mem_map_of_mem own⟩

/-- A declared name is generated unless its schema has no name, is left out, or
fails. -/
theorem declares_cases (skip : List String) {leaf : String} (declares : index.Declares leaf) :
    leaf ∈ (index.synthesizeTypes skip).map TypeDefinition.name ∨ leaf = "" ∨
      ∃ schema node, index.lookup schema = some node ∧ leaf = node.canonicalName schema ∧
        (schema ∈ skip ∨ index.Fails schema) := by
  obtain ⟨schema, node, found, canonical⟩ := declares
  by_cases outside : schema ∈ skip
  · exact Or.inr (Or.inr ⟨schema, node, found, canonical, Or.inl outside⟩)
  · cases outcome : index.buildAlone schema node with
    | error cycle =>
        have fails := fails_of_buildAlone found outcome
        exact Or.inr (Or.inr ⟨schema, node, found, canonical, Or.inr fails⟩)
    | ok made =>
        by_cases empty : leaf = ""
        · exact Or.inr (Or.inl empty)
        · subst canonical
          exact Or.inl (canonicalName_mem_synthesizeTypes found outside outcome empty)

/-- A name that a generated type mentions is declared or generated. -/
theorem declares_or_mem_of_mentioned {skip : List String} {definition : TypeDefinition}
    (generated : definition ∈ index.synthesizeTypes skip) {leaf : String}
    (mentioned : leaf ∈ definition.namedLeaves) :
    index.Declares leaf ∨ leaf ∈ (index.synthesizeTypes skip).map TypeDefinition.name := by
  rw [synthesizeTypes_eq_firstOfEachName] at generated
  have emitted := (mem_of_mem_firstOfEachName generated).1
  obtain ⟨schema, listed, inSchema⟩ := List.mem_flatMap.1 emitted
  obtain ⟨inNames, outside⟩ := List.mem_filter.1 listed
  obtain ⟨node, made, found, built, among⟩ := exists_of_mem_emittedAlone inSchema
  have account := account_of_buildAlone built
  have own : definition ∈ made.definition :: made.helpers :=
    List.mem_cons.2 (among.imp_left And.left)
  rcases account.closed definition own leaf mentioned with declares | helper
  · exact Or.inl declares
  · right
    rw [mem_names_synthesizeTypes]
    refine ⟨schema, inNames, by simpa using outside, ?_⟩
    rw [emittedAlone_of_ok found built, SynthesizedType.emitted, List.map_append]
    exact List.mem_append_right _ helper

/-! ## Resource fields -/

/-- The type name of a bare field is empty, declared, or without a schema. -/
theorem controlType_cases (index : SchemaIndex) (resource field : String) :
    index.controlType resource field = "" ∨ index.Declares (index.controlType resource field) ∨
      index.Unresolved resource field := by
  have exported : ∀ {name : String} {node : SchemaNode}, index.lookup name = some node →
      Naming.exportedName name = "" ∨ index.Declares (Naming.exportedName name) := by
    intro name node found
    by_cases named : Naming.exportedName name = ""
    · exact Or.inl named
    · exact Or.inr ⟨name, node, found, (SchemaNode.canonicalName_of_exportedName node named).symm⟩
  unfold controlType
  split
  · rename_i name refers
    cases found : index.lookup name with
    | none => exact Or.inr (Or.inr (.property refers found))
    | some node => exact (exported found).imp_right Or.inl
  · rename_i silent
    split
    · rename_i resolves
      obtain ⟨node, found⟩ := Option.isSome_iff_exists.1 resolves
      exact (exported found).imp_right Or.inl
    · rename_i missing
      split
      · rename_i resolves
        obtain ⟨node, found⟩ := Option.isSome_iff_exists.1 resolves
        exact (exported found).imp_right Or.inl
      · rename_i missingCompound
        exact Or.inr (Or.inr (.candidates silent (by simpa using missing)
          (by simpa using missingCompound)))

theorem mem_namedLeaves_resourceField {resource leaf : String} {direction : Direction}
    {field : FieldOverride}
    (mentioned : leaf ∈ (index.resourceField resource direction field).type.namedLeaves) :
    field.type = none ∧ leaf = index.controlType resource field.name := by
  change leaf ∈ (index.fieldType resource field _).namedLeaves at mentioned
  unfold fieldType at mentioned
  split at mentioned
  · cases mentioned
  · rename_i bare
    refine ⟨bare, ?_⟩
    split at mentioned
    · simpa [TypeExpr.namedLeaves] using mentioned
    · simpa [TypeExpr.namedLeaves] using mentioned

/-- A name that a resource mentions is the type name of one of its bare fields. -/
theorem exists_field_of_mentioned {manifest : ControlManifest} {resource : ResourceDefinition}
    (assembled : resource ∈ index.assembleResources manifest) {leaf : String}
    (mentioned : leaf ∈ resource.fields.flatMap fun field => field.type.namedLeaves) :
    ∃ name spec field, (name, spec) ∈ manifest.resources.entries ∧ spec.package ≠ "" ∧
      field ∈ spec.input ++ spec.output ∧ field.type = none ∧
      leaf = index.controlType name field.name := by
  obtain ⟨⟨name, spec⟩, kept, rfl⟩ := List.mem_map.1 assembled
  obtain ⟨declared, packaged⟩ := List.mem_filter.1 kept
  obtain ⟨made, listed, inType⟩ := List.mem_flatMap.1 mentioned
  have packaged : spec.package ≠ "" := by simpa using packaged
  rcases List.mem_append.1 listed with input | output
  · obtain ⟨field, inInput, rfl⟩ := List.mem_map.1 input
    obtain ⟨bare, named⟩ := mem_namedLeaves_resourceField inType
    exact ⟨name, spec, field, declared, packaged, List.mem_append_left _ inInput, bare, named⟩
  · obtain ⟨field, inOutput, rfl⟩ := List.mem_map.1 output
    obtain ⟨bare, named⟩ := mem_namedLeaves_resourceField inType
    exact ⟨name, spec, field, declared, packaged, List.mem_append_right _ inOutput, bare, named⟩

/-! ## Models -/

theorem declares_explained (manifest : ControlManifest) {leaf : String}
    (declares : index.Declares leaf) :
    leaf ∈ (index.synthesizeTypes manifest.resourceNames).map TypeDefinition.name ∨
      DanglingReason index manifest leaf := by
  rcases index.declares_cases manifest.resourceNames declares with defined | empty | reason
  · exact Or.inl defined
  · exact Or.inr (.nameless empty)
  · obtain ⟨schema, node, found, canonical, skipped | fails⟩ := reason
    · exact Or.inr (.resource found canonical skipped)
    · exact Or.inr (.failed found canonical fails)

/-- Every name that the types or the resource fields of a model mention is
defined by the model, or there is a reason why it is not. -/
theorem compile_mentions_explained (index : SchemaIndex) (manifest : ControlManifest)
    (leaf : String) (mentioned : leaf ∈ mentionedNames (index.compile manifest).types
      (index.compile manifest).resources) :
    leaf ∈ definedNames (index.compile manifest).types (index.compile manifest).resources ∨
      DanglingReason index manifest leaf := by
  have byTypes : leaf ∈ (index.synthesizeTypes manifest.resourceNames).map TypeDefinition.name →
      leaf ∈ definedNames (index.compile manifest).types (index.compile manifest).resources :=
    fun defined => List.mem_append_left _ defined
  rcases List.mem_append.1 mentioned with inTypes | inResources
  · obtain ⟨definition, generated, inDefinition⟩ := List.mem_flatMap.1 inTypes
    rcases declares_or_mem_of_mentioned generated inDefinition with declares | defined
    · exact (declares_explained manifest declares).imp_left byTypes
    · exact Or.inl (byTypes defined)
  · obtain ⟨resource, assembled, inFields⟩ := List.mem_flatMap.1 inResources
    obtain ⟨name, spec, field, declared, packaged, listed, bare, rfl⟩ :=
      exists_field_of_mentioned assembled inFields
    rcases index.controlType_cases name field.name with empty | declares | unresolved
    · exact Or.inr (.nameless empty)
    · exact (declares_explained manifest declares).imp_left byTypes
    · exact Or.inr (.field declared packaged listed bare unresolved rfl)

/-- A manifest with one resource whose outputs give their names alone. -/
def teamManifest : ControlManifest where
  resources := ⟨[("Team",
    { package := "teams", output := [FieldOverride.named "Mode", FieldOverride.named "Spec"] })],
    by decide⟩

/-- An index with one of the schemas that `teamManifest` looks for. -/
def teamIndex : SchemaIndex where
  schemas := ⟨[("TeamMode", .inline
    { type := some .string, enumValues := [.string "open"], enumNames := ["Open"] })], by decide⟩

/-- The first output finds a schema, the second one does not. -/
theorem compile_mentions_explained_team :
    mentionedNames (teamIndex.compile teamManifest).types
        (teamIndex.compile teamManifest).resources = ["TeamMode", "Spec"] ∧
      DanglingReason teamIndex teamManifest "Spec" := by
  have mentions : mentionedNames (teamIndex.compile teamManifest).types
      (teamIndex.compile teamManifest).resources = ["TeamMode", "Spec"] := by decide
  have undefined : "Spec" ∉ definedNames (teamIndex.compile teamManifest).types
      (teamIndex.compile teamManifest).resources := by decide
  have explained := compile_mentions_explained teamIndex teamManifest "Spec" (by
    rw [mentions]
    decide)
  exact ⟨mentions, explained.resolve_left undefined⟩

end SchemaIndex

end SchemaCompiler
