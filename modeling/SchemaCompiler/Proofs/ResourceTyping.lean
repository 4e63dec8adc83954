import SchemaCompiler.Resource
import SchemaCompiler.Synthesis.Synthesizer
import SchemaCompiler.Proofs.Typing

/-!
Contract: the types of resource fields beside the types of references.

Owns:
- `Schema.soleReference?`, the reference behind a property, written directly or
  as an only parent;
- `SchemaNode.KeepsName`, which targets a reference is typed by the name of, and
  `SchemaIndex.SpelledOut`, how a reference to any other target is typed;
- `SchemaIndex.resourceField_type_iff`, which compares the type of a resource
  field with the type of the reference behind it.

A resource field always gets the exported name of the schema behind it. The type
of a reference is that name too, with two exceptions. A target that declares a
scalar or an array beside other keywords is spelled out. An enumeration whose
schema exports to no name takes one from its companions, which the field does
not look at.

Does not own: fields with an explicit type, which are taken as written.
-/

namespace SchemaCompiler

/-- The reference that a schema is, or the one that is its only parent. -/
def Schema.soleReference? : Schema → Option Reference
  | .reference target => some target
  | .inline node => node.soleParentReference?

namespace SchemaNode

/-- A reference to the node is typed by its canonical name where unions are
allowed. -/
def KeepsName (name : String) (node : SchemaNode) : Prop :=
  (node.isEnum = true ∧ node.canonicalName name ≠ "") ∨ node.isUnion = true ∨
    node.isSimpleAlias = true ∨ node.isObjectLike = true

variable {node : SchemaNode} {name : String}

/-- A node is an enumeration when its literals have companions and there is a
name for it. -/
theorem enumeration?_isSome_iff :
    (node.enumeration? name).isSome = true ↔
      node.isEnum = true ∧ node.canonicalName name ≠ "" := by
  have enumName : node.isEnum = true → node.enumName name = node.canonicalName name := by
    intro enumerates
    rw [canonicalName, if_pos enumerates]
  constructor
  · intro some
    obtain ⟨definition, found⟩ := Option.isSome_iff_exists.1 some
    obtain ⟨enumerates, named, -⟩ := enumeration?_eq_some_iff.1 found
    exact ⟨enumerates, enumName enumerates ▸ named⟩
  · rintro ⟨enumerates, named⟩
    rw [← enumName enumerates] at named
    exact Option.isSome_iff_exists.2 ⟨_, enumeration?_eq_some_iff.2 ⟨enumerates, named, rfl⟩⟩

theorem enumeration?_of_not_keepsName (other : ¬ node.KeepsName name) :
    node.enumeration? name = none := by
  apply Option.not_isSome_iff_eq_none.1
  intro some
  exact other (Or.inl (enumeration?_isSome_iff.1 some))

theorem targetOutline_of_keepsName (keeps : node.KeepsName name) :
    node.targetOutline name true = .settled (.named (node.canonicalName name)) := by
  unfold targetOutline
  cases found : node.enumeration? name with
  | some definition => simp only [name_of_enumeration found]
  | none =>
      have unlisted : ¬ (node.isEnum = true ∧ node.canonicalName name ≠ "") := by
        rw [← enumeration?_isSome_iff, found]
        exact Bool.false_ne_true
      rw [canonicalName_of_no_enumeration found]
      simp only [if_true]
      rcases keeps with listed | union | simple | object
      · exact absurd listed unlisted
      · simp only [union, if_true]
      · simp only [simple, if_true, ite_self]
      · unfold isObjectLike at object
        split at object
        · rename_i untyped
          simp only [untyped, ite_self]
        · rename_i typed
          simp only [typed, ite_self]
        · cases object

end SchemaNode

namespace SchemaIndex

/-- How a reference called `name` is typed when its target does not keep that
name: by the declared scalar, or by the items of the declared array, which are
typed with the name on the trail and may turn out to be a cycle. -/
inductive SpelledOut (index : SchemaIndex) (trail : List String) (name : String)
    (node : SchemaNode) : Except ReferenceCycle TypeExpr → Prop where
  | string (declared : node.type = some .string) : SpelledOut index trail name node (.ok .string)
  | integer (declared : node.type = some .integer) : SpelledOut index trail name node (.ok .int)
  | number (declared : node.type = some .number) : SpelledOut index trail name node (.ok .float)
  | boolean (declared : node.type = some .boolean) :
      SpelledOut index trail name node (.ok .boolean)
  | anyItems (declared : node.type = some .array) (silent : node.items = none) :
      SpelledOut index trail name node (.ok (.sequence .any))
  | items {element : Schema} {inner : TypeExpr} (declared : node.type = some .array)
      (listed : node.items = some element) (fresh : name ∉ trail)
      (typed : index.typeOf (trail ++ [name]) true element = .ok inner) :
      SpelledOut index trail name node (.ok (.sequence inner))
  | cyclicItems {element : Schema} {cycle : ReferenceCycle} (declared : node.type = some .array)
      (listed : node.items = some element) (fresh : name ∉ trail)
      (failed : index.typeOf (trail ++ [name]) true element = .error cycle) :
      SpelledOut index trail name node (.error cycle)
  | again {element : Schema} (declared : node.type = some .array)
      (listed : node.items = some element) (looped : name ∈ trail) :
      SpelledOut index trail name node (.error ⟨trail ++ [name]⟩)

variable {index : SchemaIndex} {trail : List String}

theorem SpelledOut.ne_named {name leaf : String} {node : SchemaNode}
    {result : Except ReferenceCycle TypeExpr} (spelled : index.SpelledOut trail name node result) :
    result ≠ .ok (.named leaf) := by
  rintro rfl
  cases spelled

variable {target : Reference} {node : SchemaNode}

theorem typeOf_reference_of_keepsName (found : index.lookup target.schemaName = some node)
    (keeps : node.KeepsName target.schemaName) :
    index.typeOf trail true (.reference target) =
      .ok (.named (node.canonicalName target.schemaName)) := by
  rw [typeOf_reference, found]
  simp only [SchemaNode.targetOutline_of_keepsName keeps]

/-- Of a target that does not keep its name only the declared type is left. -/
theorem spelledOut_of_not_keepsName (found : index.lookup target.schemaName = some node)
    (other : ¬ node.KeepsName target.schemaName) :
    index.SpelledOut trail target.schemaName node
      (index.typeOf trail true (.reference target)) := by
  have unlisted := SchemaNode.enumeration?_of_not_keepsName other
  simp only [SchemaNode.KeepsName, not_or] at other
  obtain ⟨-, union, simple, object⟩ := other
  rw [typeOf_reference, found]
  simp only [SchemaNode.targetOutline, unlisted, union, simple, Bool.false_eq_true, if_false]
  cases declared : node.type with
  | none => simp [SchemaNode.isObjectLike, declared] at object
  | some primitive =>
      cases primitive with
      | object => simp [SchemaNode.isObjectLike, declared] at object
      | string => exact .string declared
      | integer => exact .integer declared
      | number => exact .number declared
      | boolean => exact .boolean declared
      | array =>
          cases listed : node.items with
          | none => exact .anyItems declared listed
          | some element =>
              by_cases looped : target.schemaName ∈ trail
              · simp only [looped, if_true]
                exact .again declared listed looped
              · simp only [looped, if_false]
                cases typed : index.typeOf (trail ++ [target.schemaName]) true element with
                | ok inner => exact .items declared listed looped typed
                | error cycle => exact .cyclicItems declared listed looped typed

variable {resource : String} {field : FieldOverride}

/-- The property behind a field decides the name of its type. -/
theorem controlType_of_soleReference
    (backed : (index.resourceProperty resource field.name).bind Schema.soleReference? =
      some target) :
    index.controlType resource field.name = Naming.exportedName target.schemaName := by
  obtain ⟨property, found, refers⟩ := Option.bind_eq_some_iff.1 backed
  have name : referredName property = some target.schemaName := by
    cases property with
    | reference other =>
        cases refers
        rfl
    | inline node =>
        have parent : node.soleParentReference? = some target := refers
        rw [referredName, parent]
        rfl
  rw [controlType, found, Option.bind_some, name]

/-- A field without an explicit type is named below its optional layer. -/
theorem stripOptional_fieldType (bare : field.type = none) (optional : Bool) :
    (index.fieldType resource field optional).stripOptional =
      .named (index.controlType resource field.name) := by
  rw [fieldType, bare]
  cases optional <;> rfl

/-- Below its optional layer a resource field has the exported name of the schema
that the property behind it refers to. That is the type of the reference, in any
run, exactly when the target keeps its name and the name is the exported one. A
target that keeps its name gives the reference its canonical name, and any other
is spelled out. -/
theorem resourceField_type_iff (synthesizer : Synthesizer) (direction : Direction)
    (bare : field.type = none)
    (backed : (synthesizer.index.resourceProperty resource field.name).bind
      Schema.soleReference? = some target)
    (found : synthesizer.index.lookup target.schemaName = some node) :
    (synthesizer.index.resourceField resource direction field).type.stripOptional =
        .named (Naming.exportedName target.schemaName) ∧
      (synthesizer.typeOf (.reference target) true =
          .ok (synthesizer.index.resourceField resource direction field).type.stripOptional ↔
        node.KeepsName target.schemaName ∧
          node.canonicalName target.schemaName = Naming.exportedName target.schemaName) ∧
      (node.KeepsName target.schemaName → synthesizer.typeOf (.reference target) true =
        .ok (.named (node.canonicalName target.schemaName))) ∧
      (¬ node.KeepsName target.schemaName →
        synthesizer.index.SpelledOut synthesizer.trail target.schemaName node
          (synthesizer.typeOf (.reference target) true)) := by
  have stripped :
      (synthesizer.index.resourceField resource direction field).type.stripOptional =
        .named (Naming.exportedName target.schemaName) := by
    rw [← controlType_of_soleReference backed]
    exact stripOptional_fieldType bare _
  refine ⟨stripped, ?_, typeOf_reference_of_keepsName found, spelledOut_of_not_keepsName found⟩
  rw [stripped, Synthesizer.typeOf]
  by_cases keeps : node.KeepsName target.schemaName
  · rw [typeOf_reference_of_keepsName found keeps]
    simp [keeps]
  · have spelled : synthesizer.index.SpelledOut synthesizer.trail target.schemaName node _ :=
      spelledOut_of_not_keepsName found keeps
    exact iff_of_false spelled.ne_named fun both => keeps both.1

/-! ## A number with a property, and an enumeration without a name -/

/-- A declared number that has a property as well. -/
def ratioNode : SchemaNode :=
  { type := some .number, properties := [("value", .inline { type := some .number })] }

def ratioReference : Reference := ⟨"#/components/schemas/Ratio"⟩

def scaleReference : Reference := ⟨"#/components/schemas/Scale"⟩

/-- A resource schema with a property that refers to `Ratio`, and one whose only
parent is `Scale`. -/
def gaugeNode : SchemaNode :=
  { type := some .object
    properties := [("ratio", .reference ratioReference),
      ("scale", .inline { allOf := [.reference scaleReference] })] }

def gaugeIndex : SchemaIndex where
  schemas := ⟨[("Gauge", .inline gaugeNode), ("Ratio", .inline ratioNode),
    ("Scale", .inline { type := some .number })], by decide⟩

def gaugeManifest : ControlManifest where
  resources := ⟨[("Gauge", { package := "gauges", output := [.named "Ratio"] })], by decide⟩

def stateReference : Reference := ⟨"#/components/schemas/-"⟩

/-- An enumeration that is called `Status` by its companion. -/
def stateNode : SchemaNode :=
  { type := some .string, enumValues := [.string "active"], enumNames := ["StatusActive"] }

def widgetNode : SchemaNode :=
  { type := some .object, properties := [("state", .reference stateReference)] }

/-- A resource schema with a property that refers to an enumeration, whose own
name has neither a letter nor a digit. -/
def widgetIndex : SchemaIndex where
  schemas := ⟨[("-", .inline stateNode), ("Widget", .inline widgetNode)], by decide⟩

def widgetManifest : ControlManifest where
  resources := ⟨[("Widget", { package := "widgets", output := [.named "State"] })], by decide⟩

theorem schemaName_ratioReference : ratioReference.schemaName = "Ratio" := by
  decide +kernel

theorem lookup_ratioReference : gaugeIndex.lookup ratioReference.schemaName = some ratioNode := by
  rw [schemaName_ratioReference]
  rfl

theorem schemaName_stateReference : stateReference.schemaName = "-" := by
  decide +kernel

theorem lookup_stateReference : widgetIndex.lookup stateReference.schemaName = some stateNode := by
  rw [schemaName_stateReference]
  rfl

theorem canonicalName_stateNode : stateNode.canonicalName "-" = "Status" := by
  decide +kernel

/-- A simple alias keeps its name behind an only parent, also when the field is
optional. A number with a property does not. -/
theorem resourceField_type_iff_scale :
    (gaugeIndex.resourceField "Gauge" .input (.named "Scale")).type.stripOptional =
        .named "Scale" ∧
      (Synthesizer.start gaugeIndex).typeOf (.reference scaleReference) true =
        .ok (.named "Scale") ∧
      (Synthesizer.start gaugeIndex).typeOf (.reference ratioReference) true = .ok .float := by
  have name : scaleReference.schemaName = "Scale" := by decide +kernel
  have exported : Naming.exportedName "Scale" = "Scale" := by decide +kernel
  have found : gaugeIndex.lookup scaleReference.schemaName =
      some { type := some .number } := by
    rw [name]
    rfl
  have backedByScale : (gaugeIndex.resourceProperty "Gauge" (FieldOverride.named "Scale").name).bind
      Schema.soleReference? = some scaleReference := rfl
  have backedByRatio : (gaugeIndex.resourceProperty "Gauge" (FieldOverride.named "Ratio").name).bind
      Schema.soleReference? = some ratioReference := rfl
  obtain ⟨stripped, same, -, -⟩ :=
    resourceField_type_iff (.start gaugeIndex) .input rfl backedByScale found
  obtain ⟨-, -, -, spelled⟩ :=
    resourceField_type_iff (.start gaugeIndex) .output rfl backedByRatio lookup_ratioReference
  have kept : SchemaNode.KeepsName scaleReference.schemaName { type := some .number } :=
    Or.inr (Or.inr (Or.inl rfl))
  have lost : ¬ ratioNode.KeepsName ratioReference.schemaName := by
    simp [SchemaNode.KeepsName, ratioNode, SchemaNode.isEnum, SchemaNode.isUnion,
      SchemaNode.isSimpleAlias, SchemaNode.isObjectLike, SchemaNode.hasProperties]
  have number : ∀ {result}, gaugeIndex.SpelledOut [] ratioReference.schemaName ratioNode result →
      result = .ok .float := by
    intro result spelled
    cases spelled with
    | number => rfl
    | string declared | integer declared | boolean declared | anyItems declared
    | items declared | cyclicItems declared | again declared => cases declared
  have typed := same.2 ⟨kept, rfl⟩
  rw [stripped, name, exported] at typed
  rw [name, exported] at stripped
  exact ⟨stripped, typed, number (spelled lost)⟩

/-- A field is named after a number whose reference is typed as a number, and it
has the empty name where the reference is called by the companion. -/
theorem resourceField_named_reference_spelled_out :
    ((gaugeIndex.assembleResources gaugeManifest).flatMap ResourceDefinition.outputs =
        [gaugeIndex.resourceField "Gauge" .output (.named "Ratio")] ∧
      gaugeIndex.resourceProperty "Gauge" "Ratio" = some (.reference ratioReference) ∧
      gaugeIndex.resolve ratioReference = some ratioNode ∧
      (gaugeIndex.resourceField "Gauge" .output (.named "Ratio")).type.stripOptional =
        .named "Ratio" ∧
      (Synthesizer.start gaugeIndex).typeOf (.reference ratioReference) true = .ok .float) ∧
    (widgetIndex.assembleResources widgetManifest).flatMap ResourceDefinition.outputs =
        [widgetIndex.resourceField "Widget" .output (.named "State")] ∧
      widgetIndex.resourceProperty "Widget" "State" = some (.reference stateReference) ∧
      widgetIndex.resolve stateReference = some stateNode ∧
      (widgetIndex.resourceField "Widget" .output (.named "State")).type.stripOptional =
        .named "" ∧
      (Synthesizer.start widgetIndex).typeOf (.reference stateReference) true =
        .ok (.named "Status") := by
  have exported : Naming.exportedName "Ratio" = "Ratio" := by decide +kernel
  have dropped : Naming.exportedName "-" = "" := by decide +kernel
  refine ⟨⟨rfl, rfl, lookup_ratioReference, ?_, ?_⟩, rfl, rfl, lookup_stateReference, ?_, ?_⟩
  · rw [resourceField, stripOptional_fieldType rfl, controlType_of_soleReference rfl,
      schemaName_ratioReference, exported]
  · change gaugeIndex.typeOf [] true (.reference ratioReference) = .ok .float
    rw [typeOf_reference, lookup_ratioReference]
    rfl
  · rw [resourceField, stripOptional_fieldType rfl, controlType_of_soleReference rfl,
      schemaName_stateReference, dropped]
  · have kept : stateNode.KeepsName stateReference.schemaName := by
      rw [schemaName_stateReference]
      exact Or.inl ⟨rfl, by simp [canonicalName_stateNode]⟩
    change widgetIndex.typeOf [] true (.reference stateReference) = .ok (.named "Status")
    rw [typeOf_reference_of_keepsName lookup_stateReference kept, schemaName_stateReference,
      canonicalName_stateNode]

end SchemaIndex

end SchemaCompiler
