import SchemaCompiler.Proofs.FirstOccurrence
import SchemaCompiler.Proofs.Ownership
import SchemaCompiler.Proofs.ResourceTyping

/-!
Contract: the types that annotated fields delegate to.

Owns:
- `SchemaIndex.MadeFrom`, the node that a generated definition was built from;
- `SchemaIndex.Delegates`, the occurrences whose fields are typed by the name of
  a generated type, each with the node of that type, and
  `SchemaIndex.GeneratedAs`, the names a node is generated under;
- `SchemaIndex.synthesizeTypes_delegates`: an annotated field of such an
  occurrence is named after its node, and what is generated under the name is
  annotated if it was made from that node.

The flag of a field is read off a schema, its type comes of typing the schema,
and the flag of a definition of what a node is built into. Only the node is
common to the three. A name may go to a definition that was made from another
node, because the first definition of a name is kept.

Does not own: fields whose flag is set although their type is spelled out.
-/

namespace SchemaCompiler

/-! ## Nodes with annotations -/

namespace SchemaNode

variable {node : SchemaNode}

theorem isAnnotated_iff : node.isAnnotated = true ↔
    node.isEnum = false ∧ node.isMapAlias = false ∧
      (node.isComposite = true ∨ node.hasProperties = true) := by
  simp only [isAnnotated, isComposite, Bool.and_eq_true, Bool.not_eq_true', Bool.or_eq_false_iff,
    Bool.or_eq_true, and_assoc]

theorem enumeration?_of_isAnnotated (annotated : node.isAnnotated = true) (name : String) :
    node.enumeration? name = none := by
  cases found : node.enumeration? name with
  | none => rfl
  | some definition =>
      have enumerates := (enumeration?_eq_some_iff.1 found).1
      rw [(isAnnotated_iff.1 annotated).1] at enumerates
      cases enumerates

theorem isEmptySchema_of_isAnnotated (annotated : node.isAnnotated = true) :
    node.isEmptySchema = false := by
  rcases (isAnnotated_iff.1 annotated).2.2 with composite | declares
  · simp [isEmptySchema, composite]
  · simp [isEmptySchema, declares]

/-- A reference to the node is typed by its name when the node is a union or may
be an object. -/
theorem targetOutline_of_isAnnotated (annotated : node.isAnnotated = true)
    (generated : node.isUnion = true ∨ node.isObjectLike = true) (name : String) :
    node.targetOutline name true = .settled (.named (Naming.exportedName name)) := by
  have keeps : node.KeepsName name := by
    rcases generated with union | object
    · exact Or.inr (Or.inl union)
    · exact Or.inr (Or.inr (Or.inr object))
  rw [targetOutline_of_keepsName keeps,
    canonicalName_of_no_enumeration (enumeration?_of_isAnnotated annotated name)]

end SchemaNode

namespace SchemaIndex

open Minting

variable {index : SchemaIndex} {trail : List String} {name parent : String} {node : SchemaNode}
  {definition : TypeDefinition}

/-- Whatever an annotated node is built into has annotations. -/
theorem Defines.annotate_eq_true (annotated : node.isAnnotated = true)
    (defines : index.Defines trail name node definition) : definition.annotate = true := by
  cases defines with
  | enumeration found =>
      rw [SchemaNode.enumeration?_of_isAnnotated annotated] at found
      cases found
  | mapping _ aliased =>
      rw [mapAlias, (SchemaNode.isAnnotated_iff.1 annotated).2.1] at aliased
      cases aliased
  | transparent _ empty | distinct _ empty =>
      rw [SchemaNode.isEmptySchema_of_isAnnotated annotated] at empty
      cases empty
  | union _ built =>
      obtain ⟨fields, -, rfl⟩ := exists_of_map_eq_ok built
      rfl
  | record => rfl

/-! ## Where definitions come from -/

/-- The definition was made from `node`: it is what a declared schema is built
to, or the helper type of a property with that node below a declared schema. -/
inductive MadeFrom (index : SchemaIndex) (node : SchemaNode) (definition : TypeDefinition) :
    Prop where
  | declared {name : String} (found : index.lookup name = some node)
      (builds : index.Builds name definition)
  | helper {name parent : String} {root : SchemaNode} {trail : List String} (property : String)
      (found : index.lookup name = some root)
      (reached : index.Descends (.ofNamed name root) ⟨trail, parent, .inline node⟩)
      (defined : index.DefinesHelper trail (index.helperName parent property) node definition)

theorem exists_madeFrom_of_mem_synthesizeTypes {skip : List String}
    (generated : definition ∈ index.synthesizeTypes skip) :
    ∃ node, index.MadeFrom node definition := by
  obtain ⟨name, root, made, found, built, ⟨own, -⟩ | helper⟩ :=
    exists_made_of_mem_synthesizeTypes generated
  · exact ⟨root, .declared found (own ▸ builds_of_buildAlone found built)⟩
  · obtain ⟨property, reached, defined⟩ := (account_of_buildAlone built).below definition helper
    exact ⟨_, .helper property found reached defined⟩

/-- A definition is what its node is built into below a declared schema. -/
theorem MadeFrom.exists_defines (made : index.MadeFrom node definition) :
    ∃ key root trail name, index.lookup key = some root ∧
      index.Descends (.ofNamed key root) ⟨trail, name, .inline node⟩ ∧
        index.Defines trail name node definition := by
  cases made with
  | @declared key found builds =>
      obtain ⟨other, same, everyRun⟩ := builds
      rw [found] at same
      cases same
      obtain ⟨helpers, built⟩ := everyRun (.start index) rfl
      obtain ⟨minted, writes, -⟩ := exists_writes_of_buildAlone_ok built
      exact ⟨key, node, [key], key, found, .here, defines_of_namedDefinition writes.yields⟩
  | helper property found reached defined =>
      exact ⟨_, _, _, _, found, .helper property reached, defined.defines⟩

theorem MadeFrom.annotate_eq_true (made : index.MadeFrom node definition)
    (annotated : node.isAnnotated = true) : definition.annotate = true := by
  obtain ⟨key, root, trail, name, -, -, defines⟩ := made.exists_defines
  exact defines.annotate_eq_true annotated

/-! ## Delegating occurrences -/

/-- The occurrence is typed by the name of the type that `node` is generated as:
the target of the reference behind it, when that is a union or declares neither
a scalar nor an array, or else the composition that a property has inline. -/
inductive Delegates (index : SchemaIndex) : Occurrence → SchemaNode → Prop where
  | reference {occurrence : Occurrence} {target : Reference} {node : SchemaNode}
      (refers : occurrence.schema.soleReference? = some target)
      (found : index.resolve target = some node)
      (generated : node.isUnion = true ∨ node.isObjectLike = true) :
      Delegates index occurrence node
  | composition {name : String} {node : SchemaNode} (own : node.soleParentReference? = none)
      (composite : node.isComposite = true) :
      Delegates index (.property name (.inline node)) node

/-- The names that a node is generated under, in its own right or as a helper
type. -/
inductive GeneratedAs (index : SchemaIndex) (node : SchemaNode) : String → Prop where
  | declared {name : String} (found : index.lookup name = some node) :
      GeneratedAs index node (Naming.exportedName name)
  | helper {definition : TypeDefinition} (made : index.MadeFrom node definition) :
      GeneratedAs index node definition.name

variable {occurrence : Occurrence} {delegate : SchemaNode} {type : TypeExpr}

/-- The node that a field is judged by is the one that its type is named after. -/
theorem Delegates.delegateOf_eq (delegates : index.Delegates occurrence delegate) :
    index.delegateOf occurrence.schema = some delegate := by
  cases delegates with
  | @reference _ target _ refers found =>
      cases shape : occurrence.schema with
      | reference other =>
          rw [shape] at refers
          cases refers
          exact found
      | inline node =>
          rw [shape] at refers
          have sole : node.soleParentReference? = some target := refers
          rw [delegateOf, sole]
          exact found
  | composition own _ =>
      simp only [Occurrence.schema, delegateOf, own]

theorem Delegates.isAnnotated (delegates : index.Delegates occurrence delegate)
    (annotatable : index.isAnnotatable occurrence.schema = true) :
    delegate.isAnnotated = true := by
  rwa [isAnnotatable, delegates.delegateOf_eq] at annotatable

/-- A schema with a reference behind it is typed like the reference. -/
theorem typeOf_of_soleReference {schema : Schema} {target : Reference}
    (refers : schema.soleReference? = some target) (allowUnion : Bool) :
    index.typeOf trail allowUnion schema = index.typeOf trail allowUnion (.reference target) := by
  cases schema with
  | reference other =>
      cases refers
      rfl
  | inline node =>
      have sole : node.soleParent? = some (.reference target) := by
        have parent : node.soleParentReference? = some target := refers
        unfold SchemaNode.soleParentReference? at parent
        split at parent
        · rename_i only
          cases parent
          exact only
        · cases parent
      rw [typeOf_inline, SchemaNode.outline, sole]

theorem propertyType_of_soleReference {schema : Schema} {target : Reference}
    (refers : schema.soleReference? = some target) (property : String) :
    index.propertyType trail parent property schema =
      ofExcept (index.typeOf trail true (.reference target)) := by
  cases schema with
  | reference other =>
      cases refers
      rw [propertyType]
  | inline node =>
      have sole : node.soleParentReference? = some target := refers
      rw [propertyType, sole]

theorem Types.exists_typeOf_reference {start : Site} {target : Reference}
    (typed : index.Types start parent occurrence type)
    (refers : occurrence.schema.soleReference? = some target) :
    ∃ trail, index.typeOf trail true (.reference target) = .ok type := by
  cases typed with
  | @property trail name schema _ _ typed =>
      have behind : schema.soleReference? = some target := refers
      rw [propertyType_of_soleReference behind] at typed
      exact ⟨trail, eq_of_yields_ofExcept typed⟩
  | @alternative trail _ _ _ _ _ _ typed =>
      exact ⟨trail, (typeOf_of_soleReference refers true).symm.trans typed⟩

/-- A composition that a property has inline gets a helper type. -/
theorem exists_definesHelper {property : String} (own : node.soleParentReference? = none)
    (composite : node.isComposite = true)
    (typed : Yields (index.propertyType trail parent property (.inline node)) type) :
    ∃ definition, index.DefinesHelper trail (index.helperName parent property) node definition ∧
      type = .named definition.name := by
  have kept : ∀ {definition : TypeDefinition},
      Yields (TypeExpr.named <$> remember definition) type → type = .named definition.name := by
    intro definition yields
    obtain ⟨helpers, outcome⟩ := yields
    rw [(writes_remember definition).map TypeExpr.named helpers] at outcome
    cases outcome
    rfl
  rw [propertyType, own] at typed
  simp only at typed
  split at typed
  · rename_i found
    exact ⟨_, .enumeration found, kept typed⟩
  · rename_i unlisted
    split at typed
    · obtain ⟨definition, built, rest⟩ := typed.of_bind
      exact ⟨definition, .union unlisted (eq_of_yields_ofExcept built), kept rest⟩
    · obtain ⟨definition, built, rest⟩ := typed.of_bind
      exact ⟨definition, .record built, kept rest⟩

/-- A delegating occurrence is typed by a name of its node. -/
theorem Types.named {key : String} {root : SchemaNode} (declared : index.lookup key = some root)
    (typed : index.Types (.ofNamed key root) parent occurrence type)
    (annotated : delegate.isAnnotated = true) (delegates : index.Delegates occurrence delegate) :
    ∃ name, type = .named name ∧ index.GeneratedAs delegate name := by
  cases delegates with
  | @reference _ target _ refers found generated =>
      obtain ⟨trail, outcome⟩ := typed.exists_typeOf_reference refers
      have resolved : index.lookup target.schemaName = some delegate := found
      rw [typeOf_reference, resolved] at outcome
      simp only [SchemaNode.targetOutline_of_isAnnotated annotated generated] at outcome
      cases outcome
      exact ⟨_, rfl, .declared resolved⟩
  | composition own composite =>
      cases typed with
      | property reached typed =>
          obtain ⟨definition, defined, rfl⟩ := exists_definesHelper own composite typed
          exact ⟨_, rfl, .helper (.helper _ declared reached defined)⟩

/-! ## Generated types -/

/-- Every generated definition was made from a node, and each field that has its
flag set stands for a schema with annotations. When the occurrence delegates,
the field is named after the node behind it, and a definition with that name has
annotations, unless it was made from another node. -/
theorem synthesizeTypes_delegates (index : SchemaIndex) (skip : List String)
    {definition : TypeDefinition} (generated : definition ∈ index.synthesizeTypes skip) :
    (∃ node, index.MadeFrom node definition) ∧
      ∀ node, index.MadeFrom node definition → ∀ field ∈ definition.fields,
        field.annotate = true →
          ∃ occurrence, index.Represents node definition.fields field occurrence ∧
            index.isAnnotatable occurrence.schema = true ∧
            ∀ delegate, index.Delegates occurrence delegate →
              ∃ name, field.type.stripOptional = .named name ∧ index.GeneratedAs delegate name ∧
                ∀ other ∈ index.synthesizeTypes skip, other.name = name →
                  other.annotate = true ∨
                    ∃ source, source ≠ delegate ∧ index.MadeFrom source other := by
  refine ⟨exists_madeFrom_of_mem_synthesizeTypes generated, ?_⟩
  intro node made field listed flagged
  obtain ⟨key, root, trail, name, declared, reached, defines⟩ := made.exists_defines
  obtain ⟨occurrence, represents, stands⟩ := defines.represents reached field listed
  have annotatable : index.isAnnotatable occurrence.schema = true := stands.annotate ▸ flagged
  refine ⟨occurrence, represents, annotatable, ?_⟩
  intro delegate delegates
  have annotated := delegates.isAnnotated annotatable
  obtain ⟨generatedName, typed, generatedAs⟩ := stands.typed.named declared annotated delegates
  refine ⟨generatedName, typed, generatedAs, ?_⟩
  intro other otherGenerated _
  obtain ⟨source, otherMade⟩ := exists_madeFrom_of_mem_synthesizeTypes otherGenerated
  by_cases same : source = delegate
  · exact Or.inl ((same ▸ otherMade).annotate_eq_true annotated)
  · exact Or.inr ⟨source, same, otherMade⟩

/-! ## A record with fields of every kind -/

def lidReference : Reference := ⟨"#/components/schemas/Lid"⟩

def lidNode : SchemaNode :=
  { properties := [("hinge", .inline { type := some .string })] }

/-- An enumeration that takes the name of `lidNode` when it comes first. -/
def lidKinds : SchemaNode :=
  { type := some .string, enumValues := [.string "flat"], enumNames := ["Flat"] }

/-- A record with a property that refers to a record, one that refers to a number
with a property, and one with an inline object. -/
def crateNode : SchemaNode :=
  { properties := [("lid", .reference lidReference), ("ratio", .reference ratioReference),
      ("label", .inline
        { type := some .object, properties := [("text", .inline { type := some .string })] })] }

/-- A union of one composition. -/
def cargoNode : SchemaNode :=
  { oneOf := [.inline { title := some "box", allOf := [.inline lidNode, .inline lidNode] }] }

def crateIndex : SchemaIndex where
  schemas := ⟨[("lid", .inline lidKinds), ("Lid", .inline lidNode), ("Ratio", .inline ratioNode),
    ("Crate", .inline crateNode), ("Cargo", .inline cargoNode)], by decide⟩

/-- An optional field with annotations. -/
def annotatedField (name exportedName : String) (type : TypeExpr) : FieldDefinition :=
  { FieldDefinition.withoutNotes name exportedName type true with annotate := true }

def lidField : FieldDefinition := annotatedField "lid" "Lid" (.optional (.named "Lid"))

def crateDefinition : TypeDefinition :=
  .record "Crate" none [lidField, annotatedField "ratio" "Ratio" (.optional .float),
    annotatedField "label" "Label" (.map .any)]

/-- A field of a property that refers to a declared schema. -/
theorem propertyField_reference {target : Reference} (found : index.resolve target = some node)
    (property : String) (type : TypeExpr) (optional : Bool) :
    index.propertyField property (.reference target) type optional =
      { name := property
        exportedName := Naming.exportedName property
        type := if optional then type.makeOptional else type
        optional := optional
        tag := ⟨property, optional⟩
        description := node.normalDescription
        default := Literal.ofDefault? node
        annotate := node.isAnnotated } := by
  simp only [propertyField, descriptionOf, defaultOf, nodeOf, isAnnotatable, delegateOf, found,
    Option.bind_some, Option.map_some, Option.getD_some]

theorem schemaName_lidReference : lidReference.schemaName = "Lid" := by
  decide +kernel

theorem resolve_lidReference : crateIndex.resolve lidReference = some lidNode := by
  rw [resolve, schemaName_lidReference]
  rfl

theorem resolve_ratioReference : crateIndex.resolve ratioReference = some ratioNode := by
  rw [resolve, schemaName_ratioReference]
  rfl

theorem typeOf_lidReference (trail : List String) :
    crateIndex.typeOf trail true (.reference lidReference) = .ok (.named "Lid") := by
  rw [typeOf_reference, schemaName_lidReference]
  rfl

theorem typeOf_ratioReference (trail : List String) :
    crateIndex.typeOf trail true (.reference ratioReference) = .ok .float := by
  rw [typeOf_reference, schemaName_ratioReference]
  rfl

theorem buildAlone_crate : crateIndex.buildAlone "Crate" crateNode = .ok ⟨crateDefinition, []⟩ := by
  have label : ∀ trail, crateIndex.typeOf trail true (.inline
      { type := some .object, properties := [("text", .inline { type := some .string })] }) =
        .ok (.map .any) := fun _ => typeOf_of_settled rfl true
  unfold buildAlone
  simp only [Synthesizer.build, Synthesizer.namedDefinition, Synthesizer.start,
    recordDefinition, crateNode, contribution, properties, parents, propertyType, withProperty,
    typeOf_lidReference, typeOf_ratioReference, label,
    propertyField_reference resolve_lidReference, propertyField_reference resolve_ratioReference]
  rfl

def lidKindsDefinition : TypeDefinition :=
  .enumeration "Lid" .string [⟨"Flat", "LidFlat", "\"flat\""⟩]

def lidDefinition : TypeDefinition :=
  .record "Lid" none [.withoutNotes "hinge" "Hinge" (.optional .string) true]

def ratioDefinition : TypeDefinition :=
  .record "Ratio" none [.withoutNotes "value" "Value" (.optional .float) true]

def cargoDefinition : TypeDefinition :=
  .record "Cargo" none [annotatedField "box" "Box" (.optional .any)]

theorem buildAlone_lid : crateIndex.buildAlone "Lid" lidNode = .ok ⟨lidDefinition, []⟩ := by
  unfold buildAlone
  simp only [Synthesizer.build, Synthesizer.namedDefinition, Synthesizer.start,
    recordDefinition, lidNode, contribution, properties, parents, propertyType, typeOf_primitive]
  rfl

theorem buildAlone_ratio : crateIndex.buildAlone "Ratio" ratioNode = .ok ⟨ratioDefinition, []⟩ := by
  unfold buildAlone
  simp only [Synthesizer.build, Synthesizer.namedDefinition, Synthesizer.start,
    recordDefinition, ratioNode, contribution, properties, parents, propertyType, typeOf_primitive]
  rfl

theorem buildAlone_cargo : crateIndex.buildAlone "Cargo" cargoNode = .ok ⟨cargoDefinition, []⟩ := by
  have box : ∀ trail, crateIndex.typeOf trail true
      (.inline { title := some "box", allOf := [.inline lidNode, .inline lidNode] }) =
        .ok .any := fun _ => typeOf_of_settled rfl true
  have variants : Variant.ofNode cargoNode = [⟨"box", "Box",
      .inline { title := some "box", allOf := [.inline lidNode, .inline lidNode] }⟩] := rfl
  unfold buildAlone
  simp only [Synthesizer.build, Synthesizer.namedDefinition, Synthesizer.start,
    unionDefinition, unionFields, variants, List.mapM_cons, List.mapM_nil, variantField, box]
  rfl

/-- Without the enumeration the record has its name. -/
theorem synthesizeTypes_crateIndex :
    crateIndex.synthesizeTypes [] =
        [lidKindsDefinition, ratioDefinition, crateDefinition, cargoDefinition] ∧
      crateIndex.synthesizeTypes ["lid"] =
        [lidDefinition, ratioDefinition, crateDefinition, cargoDefinition] := by
  have rest : (["Lid", "Ratio", "Crate", "Cargo"].flatMap crateIndex.emittedAlone) =
      [lidDefinition, ratioDefinition, crateDefinition, cargoDefinition] := by
    simp only [List.flatMap_cons, List.flatMap_nil, emittedAlone_of_ok rfl buildAlone_lid,
      emittedAlone_of_ok rfl buildAlone_ratio, emittedAlone_of_ok rfl buildAlone_crate,
      emittedAlone_of_ok rfl buildAlone_cargo]
    rfl
  have kinds : crateIndex.buildAlone "lid" lidKinds = .ok ⟨lidKindsDefinition, []⟩ := rfl
  constructor
  · rw [synthesizeTypes_eq_firstOfEachName]
    change firstOfEachName [] (("lid" :: ["Lid", "Ratio", "Crate", "Cargo"]).flatMap _) = _
    rw [List.flatMap_cons, rest, emittedAlone_of_ok rfl kinds]
    rfl
  · rw [synthesizeTypes_eq_firstOfEachName]
    change firstOfEachName [] (["Lid", "Ratio", "Crate", "Cargo"].flatMap _) = _
    rw [rest]
    rfl

/-- A field that refers to a record is named after it, and so annotated for a
reason, when nothing else has taken the name. -/
theorem synthesizeTypes_delegates_lid :
    crateDefinition ∈ crateIndex.synthesizeTypes ["lid"] ∧ lidField ∈ crateDefinition.fields ∧
      ∃ name, lidField.type.stripOptional = .named name ∧ crateIndex.GeneratedAs lidNode name ∧
        ∀ other ∈ crateIndex.synthesizeTypes ["lid"], other.name = name →
          other.annotate = true ∨
            ∃ source, source ≠ lidNode ∧ crateIndex.MadeFrom source other := by
  have generated : crateDefinition ∈ crateIndex.synthesizeTypes ["lid"] := by
    rw [synthesizeTypes_crateIndex.2]
    decide
  have found : crateIndex.lookup "Crate" = some crateNode := rfl
  have made : crateIndex.MadeFrom crateNode crateDefinition :=
    .declared found (builds_of_buildAlone found buildAlone_crate)
  obtain ⟨-, fields⟩ := synthesizeTypes_delegates crateIndex ["lid"] generated
  obtain ⟨occurrence, represents, -, delegated⟩ :=
    fields crateNode made lidField List.mem_cons_self rfl
  have same : occurrence = .property "lid" (.reference lidReference) := by
    cases represents with
    | first first =>
        cases first
        rfl
    | alternative paired => cases paired
  subst same
  refine ⟨generated, List.mem_cons_self, delegated lidNode ?_⟩
  exact .reference rfl resolve_lidReference (Or.inr rfl)

/-- The flag alone does not give a type to delegate to. Here the name of one field
went to the enumeration, which came first, and the others are spelled out: a
number with a property, an inline object, and a composition in a union. -/
theorem synthesizeTypes_flag_without_annotations :
    (¬ ∀ definition ∈ crateIndex.synthesizeTypes [], ∀ field ∈ definition.fields,
        field.annotate = true →
          ∃ name, field.type.stripOptional = .named name ∧
            ∀ other ∈ crateIndex.synthesizeTypes [], other.name = name →
              other.annotate = true) ∧
      crateDefinition ∈ crateIndex.synthesizeTypes [] ∧
      cargoDefinition ∈ crateIndex.synthesizeTypes [] ∧
      lidKindsDefinition ∈ crateIndex.synthesizeTypes [] ∧
      (crateDefinition.fields ++ cargoDefinition.fields).map
          (fun field => (field.annotate, field.type.stripOptional)) =
        [(true, .named lidKindsDefinition.name), (true, .float), (true, .map .any), (true, .any)] ∧
      lidKindsDefinition.annotate = false := by
  rw [synthesizeTypes_crateIndex.1]
  refine ⟨fun rule => ?_, by decide, by decide, by decide, by decide, rfl⟩
  obtain ⟨name, typed, annotated⟩ := rule crateDefinition (by decide) lidField
    List.mem_cons_self rfl
  cases typed
  have flag : false = true := annotated lidKindsDefinition List.mem_cons_self rfl
  cases flag

end SchemaIndex

end SchemaCompiler
