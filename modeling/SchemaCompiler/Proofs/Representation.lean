import SchemaCompiler.Proofs.Dangling
import SchemaCompiler.Proofs.ResourceTyping

/-!
Contract: which schemas a model represents.

Owns:
- that a schema which resolves and builds stands in the model under its
  canonical name, as a type or as a resource;
- `SchemaIndex.NamedAfter`, the schemas that the type name of a bare resource
  field is taken from;
- that a reference typed by a bare name, and a field named after a schema with
  an exported name, have the canonical name, which does not dangle;
- the resources whose schemas are not represented, those without a package and
  those declared under another spelling, and the enumerations that fields have
  no name for.

A resource keeps the spelling of the manifest, while references use the
canonical name. The types leave out every schema the manifest declares, and the
resources leave out every declaration without a package. A reference to an array
may be spelled out, and then says nothing about the name of the array.

Does not own: schemas that fail (`SchemaCompiler.Proofs.Dangling`).
-/

namespace SchemaCompiler.SchemaIndex

variable {index : SchemaIndex} {manifest : ControlManifest} {name : String} {node : SchemaNode}

/-- A schema that does not fail in some run builds in a run of its own. -/
theorem exists_buildAlone_of_not_fails (found : index.lookup name = some node)
    (builds : ¬ index.Fails name) : ∃ made, index.buildAlone name node = .ok made := by
  cases outcome : index.buildAlone name node with
  | ok made => exact ⟨made, rfl⟩
  | error cycle => exact absurd (fails_of_buildAlone found outcome) builds

/-- A declaration with a package is a resource of the model. -/
theorem mem_names_assembleResources {spec : ResourceSpec}
    (declared : (name, spec) ∈ manifest.resources.entries) (packaged : spec.package ≠ "") :
    name ∈ (index.assembleResources manifest).map ResourceDefinition.name := by
  have kept : (name, spec) ∈ manifest.resources.entries.filter fun entry =>
      entry.2.package ≠ "" := List.mem_filter.2 ⟨declared, by simpa using packaged⟩
  exact List.mem_map.2 ⟨index.assembleResource name spec, List.mem_map_of_mem kept, rfl⟩

theorem not_mem_dangling_of_defined {leaf : String}
    (defined : leaf ∈ definedNames (index.compile manifest).types
      (index.compile manifest).resources) :
    leaf ∉ (index.compile manifest).dangling := by
  intro dangles
  exact (mem_danglingReferences_iff.1 dangles).2 defined

/-! ## The names that references use -/

/-- A reference typed by a bare name has the canonical name of its target. -/
theorem eq_canonicalName_of_typeOf {trail : List String} {allowUnion : Bool} {target : Reference}
    {leaf : String} (found : index.lookup target.schemaName = some node)
    (typed : index.typeOf trail allowUnion (.reference target) = .ok (.named leaf)) :
    leaf = node.canonicalName target.schemaName := by
  rw [typeOf_reference, found] at typed
  simp only at typed
  cases shape : node.targetOutline target.schemaName allowUnion with
  | settled type =>
      rw [shape] at typed
      cases typed
      exact SchemaNode.namedLeaves_of_targetOutline shape (List.mem_singleton.2 rfl)
  | sequenceOf element =>
      rw [shape] at typed
      simp only at typed
      split at typed
      · cases typed
      · obtain ⟨inner, -, sequence⟩ := exists_of_map_eq_ok typed
        cases sequence

/-- The type name of a bare field is taken from the schema that its property
refers to, and, where the property refers to nothing, from one called like the
field, or else from one called like resource and field together. -/
inductive NamedAfter (index : SchemaIndex) (resource field : String) : String → Prop where
  | property {name : String}
      (refers : (index.resourceProperty resource field).bind referredName = some name) :
      NamedAfter index resource field name
  | field (silent : (index.resourceProperty resource field).bind referredName = none)
      (resolves : (index.lookup field).isSome = true) : NamedAfter index resource field field
  | compound (silent : (index.resourceProperty resource field).bind referredName = none)
      (missing : (index.lookup field).isSome = false)
      (resolves : (index.lookup (resource ++ field)).isSome = true) :
      NamedAfter index resource field (resource ++ field)

theorem NamedAfter.controlType_eq {resource field : String}
    (after : index.NamedAfter resource field name) :
    index.controlType resource field = Naming.exportedName name := by
  unfold controlType
  cases after with
  | property refers => simp only [refers]
  | field silent resolves => simp only [silent, resolves, if_true]
  | compound silent missing resolves =>
      simp only [silent, missing, resolves, Bool.false_eq_true, if_false, if_true]

/-! ## Models -/

/-- A schema that resolves and builds is represented under its canonical name,
provided that a manifest which declares it as a resource gives it a package and
its canonical name. The name does not dangle. It is the name of every reference
to the schema that is typed by a bare name, and, where the schema has an exported
name, of every bare field named after the schema. -/
theorem compile_represents (index : SchemaIndex) (manifest : ControlManifest) {name : String}
    {node : SchemaNode} (found : index.lookup name = some node)
    (named : node.canonicalName name ≠ "") (builds : ¬ index.Fails name)
    (generated : ∀ spec, (name, spec) ∈ manifest.resources.entries →
      spec.package ≠ "" ∧ node.canonicalName name = name) :
    node.canonicalName name ∈
        definedNames (index.compile manifest).types (index.compile manifest).resources ∧
      node.canonicalName name ∉ (index.compile manifest).dangling ∧
      (∀ (target : Reference) (trail : List String) (allowUnion : Bool) (leaf : String),
        target.schemaName = name →
          index.typeOf trail allowUnion (.reference target) = .ok (.named leaf) →
            leaf = node.canonicalName name) ∧
      ∀ (resource : String) (direction : Direction) (field : FieldOverride), field.type = none →
        index.NamedAfter resource field.name name → Naming.exportedName name ≠ "" →
          (index.resourceField resource direction field).type.stripOptional =
            .named (node.canonicalName name) := by
  obtain ⟨made, built⟩ := exists_buildAlone_of_not_fails found builds
  have defined : node.canonicalName name ∈
      definedNames (index.compile manifest).types (index.compile manifest).resources := by
    by_cases declared : name ∈ manifest.resourceNames
    · obtain ⟨⟨_, spec⟩, entry, rfl⟩ := List.mem_map.1 declared
      obtain ⟨packaged, canonical⟩ := generated spec entry
      rw [canonical]
      exact List.mem_append_right _ (mem_names_assembleResources entry packaged)
    · exact List.mem_append_left _ (canonicalName_mem_synthesizeTypes found declared built named)
  refine ⟨defined, not_mem_dangling_of_defined defined, ?_, ?_⟩
  · rintro target trail allowUnion leaf rfl typed
    exact eq_canonicalName_of_typeOf found typed
  · intro resource direction field bare after exported
    rw [SchemaNode.canonicalName_of_exportedName node exported, ← after.controlType_eq]
    exact stripOptional_fieldType bare _

/-! ## Resources that stand for no name -/

/-- An enumeration of one paint. -/
def paintNode (literal companion : String) : SchemaNode :=
  { type := some .string, enumValues := [.string literal], enumNames := [companion] }

/-- An index with one schema called by its canonical name and one that is not. -/
def paintIndex : SchemaIndex where
  schemas := ⟨[("Gloss", .inline (paintNode "high" "High")),
    ("tint", .inline (paintNode "warm" "Warm"))], by decide⟩

/-- Both schemas of `paintIndex` as resources, the first one under `package`. -/
def paintManifest (package : String) : ControlManifest where
  resources := ⟨[("Gloss", { package }),
    ("tint", { package := "tints", output := [.named "Gloss", .named "tint"] })],
    by simp [Entries.keys]⟩

theorem lookup_paintIndex_gloss :
    paintIndex.lookup "Gloss" = some (paintNode "high" "High") := rfl

theorem lookup_paintIndex_tint :
    paintIndex.lookup "tint" = some (paintNode "warm" "Warm") := rfl

theorem paintIndex_not_fails_gloss : ¬ paintIndex.Fails "Gloss" := by
  intro fails
  obtain ⟨cycle, failed⟩ := fails.buildAlone lookup_paintIndex_gloss
  cases failed

theorem paintIndex_not_fails_tint : ¬ paintIndex.Fails "tint" := by
  intro fails
  obtain ⟨cycle, failed⟩ := fails.buildAlone lookup_paintIndex_tint
  cases failed

/-- With a package the first schema is represented as a resource, and the field
called like it has its name. -/
theorem compile_represents_gloss :
    "Gloss" ∈ (paintManifest "paints").resourceNames ∧
      "Gloss" ∈ definedNames (paintIndex.compile (paintManifest "paints")).types
        (paintIndex.compile (paintManifest "paints")).resources ∧
      (paintIndex.resourceField "tint" .output (.named "Gloss")).type.stripOptional =
        .named "Gloss" := by
  have canonical : (paintNode "high" "High").canonicalName "Gloss" = "Gloss" := by decide
  have represented := compile_represents paintIndex (paintManifest "paints")
    lookup_paintIndex_gloss (by decide) paintIndex_not_fails_gloss (by
      intro spec declared
      have packaged : spec.package = "paints" := by simp_all [paintManifest]
      exact ⟨by simp [packaged], canonical⟩)
  rw [canonical] at represented
  obtain ⟨defined, -, -, fields⟩ := represented
  have after : paintIndex.NamedAfter "tint" "Gloss" "Gloss" := .field rfl rfl
  exact ⟨by decide, defined, fields "tint" .output (.named "Gloss") rfl after (by decide)⟩

theorem widgetIndex_not_fails : ¬ widgetIndex.Fails "-" := by
  intro fails
  obtain ⟨cycle, failed⟩ := fails.buildAlone rfl
  cases failed

/-- Without a package the first schema is lost, and so is the second one, whose
resource does not have its canonical name. Both are mentioned. An enumeration
without an exported name is represented, but a field that refers to it has an
empty name. -/
theorem compile_loses :
    (∃ node, paintIndex.lookup "Gloss" = some node ∧ node.canonicalName "Gloss" = "Gloss" ∧
        ¬ paintIndex.Fails "Gloss") ∧
      (∃ node, paintIndex.lookup "tint" = some node ∧ node.canonicalName "tint" = "Tint" ∧
        ¬ paintIndex.Fails "tint") ∧
      definedNames (paintIndex.compile (paintManifest "")).types
        (paintIndex.compile (paintManifest "")).resources = ["tint"] ∧
      (paintIndex.compile (paintManifest "")).dangling = ["Gloss", "Tint"] ∧
      (∃ node, widgetIndex.lookup "-" = some node ∧ node.canonicalName "-" = "Status" ∧
        ¬ widgetIndex.Fails "-") ∧
      widgetIndex.NamedAfter "Widget" "State" "-" ∧
      definedNames (widgetIndex.compile widgetManifest).types
        (widgetIndex.compile widgetManifest).resources = ["Status", "Widget"] ∧
      (widgetIndex.compile widgetManifest).dangling = [""] := by
  have after : widgetIndex.NamedAfter "Widget" "State" "-" :=
    .property (congrArg some schemaName_stateReference)
  exact ⟨⟨_, lookup_paintIndex_gloss, by decide, paintIndex_not_fails_gloss⟩,
    ⟨_, lookup_paintIndex_tint, by decide, paintIndex_not_fails_tint⟩, by decide, by decide,
    ⟨_, rfl, canonicalName_stateNode, widgetIndex_not_fails⟩, after, by decide +kernel,
    by decide +kernel⟩

end SchemaCompiler.SchemaIndex
