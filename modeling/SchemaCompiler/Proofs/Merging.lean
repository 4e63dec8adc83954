import SchemaCompiler.Proofs.Delegation
import SchemaCompiler.Proofs.Encounters
import SchemaCompiler.Proofs.FirstOfEachKey
import SchemaCompiler.Proofs.Required

/-!
Contract: what the fields of a flattened record come to.

Owns:
- `SchemaIndex.Starts`, the field that the first occurrence of a name starts
  under the required names;
- `SchemaIndex.Led`, a table that is led by occurrences, and
  `exists_led_of_recordDefinition`: the table of a record is led by those of its
  node;
- `SchemaIndex.declarations`, the properties that a node and its parents declare
  in order, and `Synthesizer.OfDeclaration`, the field of one of them;
- `Synthesizer.recordDefinition_merges`: where no union is folded in, the record
  has one such field for each name, in order of first declaration.

The required names are the same for every source. So once a property has its
field, taking up the property again changes nothing.

Does not own: what folded alternatives come to (`SchemaCompiler.Proofs.Folding`).
-/

namespace SchemaCompiler

namespace SchemaIndex

open Minting

/-! ## Tables -/

/-- A field that an occurrence of known type starts. Further occurrences of its
name may still decide whether the field of an alternative is optional. -/
inductive Starts (index : SchemaIndex) (required : List String) :
    Occurrence × TypeExpr → FieldDefinition → Prop where
  | property {name : String} {schema : Schema} {type : TypeExpr} (plain : type.Plain) :
      Starts index required (.property name schema, type)
        (index.propertyField name schema type (!required.contains name))
  | alternative {variant : Variant} {type : TypeExpr} (plain : type.Plain) (optional : Bool)
      (tag : FieldTag) :
      Starts index required (.alternative variant, type)
        { index.alternativeField variant type with
          optional := optional
          type := if optional then type.makeOptional else type
          tag := tag }

variable {index : SchemaIndex} {required : List String}

/-- A further occurrence of a property does not change where its field started. -/
theorem Starts.merged {typing : Occurrence × TypeExpr} {field : FieldDefinition}
    (starts : index.Starts required typing field) :
    index.Starts required typing
      (FieldTable.merged field typing.1.name (!required.contains typing.1.name)) := by
  cases starts with
  | @property name schema type plain =>
      have same : FieldTable.merged
          (index.propertyField name schema type (!required.contains name)) name
            (!required.contains name) =
          index.propertyField name schema type (!required.contains name) :=
        FieldTable.merged_eq_self plain rfl rfl
      exact same.symm ▸ .property plain
  | @alternative variant type plain optional tag =>
      rw [FieldTable.merged_eq plain rfl]
      exact .alternative plain _ _

theorem Starts.name_eq {typing : Occurrence × TypeExpr} {field : FieldDefinition}
    (starts : index.Starts required typing field) : field.name = typing.1.name := by
  cases starts <;> rfl

/-- The table is led by the occurrences taken up so far. -/
abbrev Led (index : SchemaIndex) (required : List String) (seen : List (Occurrence × TypeExpr))
    (table : FieldTable) : Prop :=
  table.Leads (fun typing => typing.1.name) (index.Starts required) seen

theorem Led.takeUp {seen : List (Occurrence × TypeExpr)} {table : FieldTable}
    (led : index.Led required seen table) (occurrence : Occurrence) {type : TypeExpr}
    (plain : type.Plain) :
    index.Led required (seen ++ [(occurrence, type)])
      (index.takeUp required table occurrence type) := by
  have fresh : index.Starts required (occurrence, type)
      (index.firstField required occurrence type) := by
    cases occurrence with
    | property name schema => exact .property plain
    | alternative variant => exact .alternative plain true _
  exact leads_takeUp led (occurrence, type) rfl fresh fun first field named starts =>
    named ▸ starts.merged

/-- Taking up occurrences in turn leaves a table that they lead. -/
theorem Led.takeAll {seen typings : List (Occurrence × TypeExpr)} {table : FieldTable}
    (led : index.Led required seen table) (plain : ∀ typing ∈ typings, typing.2.Plain) :
    index.Led required (seen ++ typings) (index.takeAll required table typings) := by
  induction typings generalizing seen table with
  | nil => rwa [List.append_nil]
  | cons typing rest inductionHypothesis =>
      rw [List.forall_mem_cons] at plain
      have further := inductionHypothesis (led.takeUp typing.1 plain.1) plain.2
      rwa [List.append_assoc] at further

/-! ## Records -/

variable {trail : List String} {name : String} {node : SchemaNode} {definition : TypeDefinition}
  {fields : List FieldDefinition}

theorem typing_plain {parent : String} {met : Except ReferenceCycle Encounter}
    {typing : Occurrence × TypeExpr} (typed : index.typing parent met = .ok typing) :
    typing.2.Plain := by
  cases met with
  | error cycle => cases typed
  | ok encounter =>
      obtain ⟨type, atType, rfl⟩ := exists_of_map_eq_ok typed
      obtain ⟨trail, occurrence⟩ := encounter
      cases occurrence with
      | property name schema =>
          have steady := index.steady_propertyType trail parent name schema
          exact propertyType_plain (steady.yields_iff.2 atType)
      | alternative variant => exact typeOf_plain atType

/-- The fields of a flattened record are the values of a table that the
encounters of its node lead. -/
theorem exists_led_of_recordDefinition
    (built : Yields (index.recordDefinition trail name node) definition)
    (flattened : definition.shape = .record fields) :
    ∃ typings table, (index.itinerary trail node).mapM (index.typing name) = .ok typings ∧
      index.Led (index.requiredNames node) typings table ∧ fields = table.values := by
  obtain ⟨typings, typed, rfl⟩ :=
    exists_of_map_eq_ok (flattened_of_recordDefinition built flattened)
  have plain : ∀ typing ∈ typings, typing.2.Plain := by
    intro typing member
    obtain ⟨met, -, outcome⟩ := exists_of_mem_mapM_ok typed typing member
    exact typing_plain outcome
  have empty : index.Led (index.requiredNames node) [] {} := OrderedTable.leads_empty _ _
  exact ⟨typings, _, typed, empty.takeAll plain, rfl⟩

/-- A flattened record has one field for each name that occurs. -/
theorem names_of_recordDefinition
    (built : Yields (index.recordDefinition trail name node) definition)
    (flattened : definition.shape = .record fields) :
    fields.map FieldDefinition.name = ((index.occurrences node).map Occurrence.name).eraseDups := by
  obtain ⟨typings, table, typed, led, rfl⟩ := exists_led_of_recordDefinition built flattened
  rw [led.names fun _ _ => Starts.name_eq, ← occurrences_of_mapM_ok typed, List.map_map]
  rfl

/-! ## Declarations -/

/-- A property with the trail that its type is asked for under. -/
structure Declaration where
  trail : List String
  name : String
  schema : Schema

def Declaration.encounter (declaration : Declaration) : Encounter :=
  ⟨declaration.trail, .property declaration.name declaration.schema⟩

/-- The properties of a node and then of each parent in order. -/
def declarations (index : SchemaIndex) (trail : List String) (node : SchemaNode) :
    List Declaration :=
  (index.sources trail node).flatMap fun source =>
    source.node.properties.map fun entry => ⟨source.trail, entry.1, entry.2⟩

/-- Where no union is folded in, the properties are all that is met. -/
theorem encounters_eq_declarations
    (unfolded : ∀ source ∈ node :: node.allOf.filterMap index.nodeOf,
      source.isUnion = true → source.hasProperties = true) (trail : List String) :
    index.encounters trail node = (index.declarations trail node).map Declaration.encounter := by
  rw [encounters, declarations, List.map_flatMap]
  refine List.flatMap_congr fun source listed => ?_
  have single := unfolded source.node (by
    rw [← nodes_sources index trail]
    exact List.mem_map_of_mem listed)
  rw [Source.encounters, SchemaNode.occurrences_of_unfolded single, List.map_map, List.map_map]
  rfl

/-- The field of a property of `parent` under the required names. -/
structure OfDeclaration (index : SchemaIndex) (parent : String) (required : List String)
    (declaration : Declaration) (field : FieldDefinition) : Prop where
  name : field.name = declaration.name
  exportedName : field.exportedName = Naming.exportedName declaration.name
  optional : field.optional = true ↔ declaration.name ∉ required
  tag : field.tag = ⟨declaration.name, field.optional⟩
  type : ∃ type, (∀ helpers, ((Synthesizer.mk index helpers declaration.trail).propertyType
      parent declaration.name declaration.schema).1 = .ok type) ∧
    field.type = if field.optional then type.makeOptional else type
  description : field.description = index.descriptionOf declaration.schema
  default : field.default = index.defaultOf declaration.schema
  annotate : field.annotate = index.isAnnotatable declaration.schema

theorem Starts.ofDeclaration {parent : String} {declaration : Declaration} {field : FieldDefinition}
    {typing : Occurrence × TypeExpr}
    (starts : index.Starts required typing field)
    (same : declaration.encounter.occurrence = typing.1)
    (typed : index.typeAt parent declaration.encounter = .ok typing.2) :
    index.OfDeclaration parent required declaration field := by
  cases starts with
  | alternative => cases same
  | @property name schema type plain =>
      cases same
      have steady := index.steady_propertyType declaration.trail parent declaration.name
        declaration.schema
      refine ⟨rfl, rfl, ?_, rfl, ⟨type, fun helpers => (steady helpers).trans typed, rfl⟩,
        rfl, rfl, rfl⟩
      simp [propertyField]

end SchemaIndex

namespace Synthesizer

open SchemaIndex

/-- Where no union is folded into a record, its fields are the properties that
its node and the parents of its node declare, one for each name in order of
first declaration. Each field is made from the first property of its name, and
it is optional unless one of them requires the name. -/
theorem recordDefinition_merges {synthesizer : Synthesizer} {name : String} {node : SchemaNode}
    {definition : TypeDefinition} {fields : List FieldDefinition}
    (built : (synthesizer.recordDefinition name node).1 = .ok definition)
    (flattened : definition.shape = .record fields)
    (unfolded : ∀ source ∈ node :: node.allOf.filterMap synthesizer.index.nodeOf,
      source.isUnion = true → source.hasProperties = true) :
    let declarations := synthesizer.index.declarations synthesizer.trail node
    fields.map FieldDefinition.name = (declarations.map Declaration.name).eraseDups ∧
      ∀ field ∈ fields, ∃ declaration,
        declarations.find? (fun other => other.name = field.name) = some declaration ∧
          synthesizer.index.OfDeclaration name (synthesizer.index.requiredNames node)
            declaration field := by
  have met := encounters_eq_declarations unfolded synthesizer.trail
  have yields := yields_of_recordDefinition built
  constructor
  · rw [names_of_recordDefinition yields flattened,
      ← occurrences_encounters _ synthesizer.trail, met, List.map_map, List.map_map]
    rfl
  · intro field member
    obtain ⟨typings, table, typed, led, rfl⟩ := exists_led_of_recordDefinition yields flattened
    have paired := forall₂_encounters typed
    rw [met, List.forall₂_map_left_iff] at paired
    obtain ⟨typing, first, starts⟩ := led.exists_first (fun _ _ => Starts.name_eq) member
    obtain ⟨declaration, firstDeclared, same, ofType⟩ :=
      exists_find?_of_forall₂ paired (fun declaration typing both => by rw [← both.1]) first
    exact ⟨declaration, firstDeclared, starts.ofDeclaration same ofType⟩

/-! ## A property from two parents -/

def countSchema : Schema := .inline { type := some .integer }

/-- A parent that declares the property of `lidNode` again and requires it. -/
def hingeNode : SchemaNode :=
  { properties := [("hinge", countSchema), ("zone", textSchema)], required := ["hinge"] }

/-- A record whose first parent is a reference to `lidNode`. -/
def trunkNode : SchemaNode :=
  { properties := [("zone", textSchema)]
    allOf := [.reference lidReference, .inline hingeNode] }

def optionalZoneField : FieldDefinition := .withoutNotes "zone" "Zone" (.optional .string) true

def hingeField : FieldDefinition := .withoutNotes "hinge" "Hinge" .string false

def trunkFields : List FieldDefinition := [optionalZoneField, hingeField]

theorem parents_trunkNode : trunkNode.allOf.filterMap crateIndex.nodeOf = [lidNode, hingeNode] := by
  simp only [trunkNode, nodeOf, List.filterMap_cons, resolve_lidReference]
  rfl

theorem requiredNames_trunkNode : crateIndex.requiredNames trunkNode = ["hinge"] := by
  rw [requiredNames, parents_trunkNode]
  rfl

theorem declarations_trunkNode : crateIndex.declarations [] trunkNode =
    [⟨[], "zone", textSchema⟩, ⟨["Lid"], "hinge", textSchema⟩, ⟨[], "hinge", countSchema⟩,
      ⟨[], "zone", textSchema⟩] := by
  simp only [declarations, sources, trunkNode, List.filterMap_cons, sourceOf?,
    resolve_lidReference, schemaName_lidReference]
  rfl

theorem recordDefinition_trunkNode :
    ((start crateIndex).recordDefinition "Trunk" trunkNode).1 =
      .ok (.record "Trunk" none trunkFields) := by
  have label : ∀ trail property,
      crateIndex.typing "Trunk" (.ok ⟨trail, .property property textSchema⟩) =
        .ok (.property property textSchema, .string) :=
    fun _ => typing_of_settled rfl rfl fun _ => rfl
  have count : ∀ trail property,
      crateIndex.typing "Trunk" (.ok ⟨trail, .property property countSchema⟩) =
        .ok (.property property countSchema, .integer) :=
    fun _ => typing_of_settled rfl rfl fun _ => rfl
  have met : crateIndex.itinerary [] trunkNode =
      [.ok ⟨[], .property "zone" textSchema⟩, .ok ⟨["Lid"], .property "hinge" textSchema⟩,
        .ok ⟨[], .property "hinge" countSchema⟩, .ok ⟨[], .property "zone" textSchema⟩] := by
    simp only [itinerary, trunkNode, List.flatMap_cons, List.flatMap_nil, approach,
      resolve_lidReference, schemaName_lidReference]
    rfl
  have flattened : crateIndex.flattened [] "Trunk" trunkNode = .ok trunkFields := by
    rw [SchemaIndex.flattened, met, requiredNames_trunkNode]
    simp only [List.mapM_cons, List.mapM_nil, label, count]
    rfl
  have result : (crateIndex.recordDefinition [] "Trunk" trunkNode).result = _ :=
    result_recordDefinition rfl
  rw [flattened] at result
  exact result

/-- The field of the property that both parents declare is made from the first of
them, and the second one makes it required. -/
theorem recordDefinition_merges_trunk :
    trunkFields.map FieldDefinition.name = ["zone", "hinge"] ∧
      crateIndex.OfDeclaration "Trunk" ["hinge"] ⟨["Lid"], "hinge", textSchema⟩ hingeField := by
  have unfolded : ∀ source ∈ trunkNode :: trunkNode.allOf.filterMap crateIndex.nodeOf,
      source.isUnion = true → source.hasProperties = true := by
    rw [parents_trunkNode]
    decide
  obtain ⟨names, each⟩ := recordDefinition_merges recordDefinition_trunkNode rfl unfolded
  have distinct : ((crateIndex.declarations [] trunkNode).map Declaration.name).eraseDups =
      ["zone", "hinge"] := by
    rw [declarations_trunkNode]
    rfl
  obtain ⟨declaration, first, made⟩ := each _ (List.mem_cons_of_mem _ List.mem_cons_self)
  have same : some ⟨["Lid"], "hinge", textSchema⟩ = some declaration := by
    rw [← first]
    change _ = (crateIndex.declarations [] trunkNode).find? _
    rw [declarations_trunkNode]
    rfl
  cases same
  exact ⟨names.trans distinct, requiredNames_trunkNode ▸ made⟩

end Synthesizer

end SchemaCompiler
