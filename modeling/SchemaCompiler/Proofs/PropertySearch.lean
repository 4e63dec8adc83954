import SchemaCompiler.Resource
import SchemaCompiler.Proofs.Merging

/-!
Contract: the properties that resources find beside the fields of records.

Owns:
- `resourceProperty_eq_findSome?`, the search for the property behind a resource
  field as a search through the sources that a record is flattened from;
- `find?_occurrences`, by which it finds the first occurrence of its name, where no
  union is folded in;
- `Synthesizer.resourceProperty_agrees`: a resource field has a property behind it
  exactly when the record of the resource schema has a field of that name, and then
  both have the same description and the same default.

The search stops at the first property of a name, and flattening goes on to the
last. They agree because further occurrences change nothing but the flag of a
field and its optional layer.

Does not own: the types of resource fields (`SchemaCompiler.Proofs.ResourceTyping`).
-/

namespace SchemaCompiler

namespace SchemaIndex

variable {index : SchemaIndex} {resource text : String} {node : SchemaNode}

/-- The property behind a field is the first of its name on the resource schema
and its parents. -/
theorem resourceProperty_eq_findSome? (found : index.lookup resource = some node) :
    index.resourceProperty resource text =
      (node :: node.allOf.filterMap index.nodeOf).findSome? fun source =>
        Entries.find? source.properties (Naming.lowerCamel text) := by
  cases own : Entries.find? node.properties (Naming.lowerCamel text) with
  | some schema => simp [resourceProperty, found, own]
  | none => simp [resourceProperty, found, own]

/-- The first property of a name among the occurrences of a list. -/
theorem find?_map_property (declared : List (String × Schema)) (name : String) :
    (declared.map fun entry => Occurrence.property entry.1 entry.2).find?
        (fun occurrence => occurrence.name = name) =
      (Entries.find? declared name).map (Occurrence.property name) := by
  induction declared with
  | nil => rfl
  | cons entry rest inductionHypothesis =>
      obtain ⟨other, schema⟩ := entry
      by_cases same : other = name
      · subst same
        simp [Occurrence.name, Entries.find?]
      · rw [List.map_cons, List.find?_cons_of_neg (by simp [Occurrence.name, same]),
          inductionHypothesis, Entries.find?, if_neg same]

/-- Where no union is folded in, the search comes to the first occurrence of the
name. -/
theorem find?_occurrences (found : index.lookup resource = some node)
    (unfolded : ∀ source ∈ node :: node.allOf.filterMap index.nodeOf,
      source.isUnion = true → source.hasProperties = true) :
    (index.occurrences node).find? (fun occurrence => occurrence.name = Naming.lowerCamel text) =
      (index.resourceProperty resource text).map
        (Occurrence.property (Naming.lowerCamel text)) := by
  have properties : index.occurrences node =
      (node :: node.allOf.filterMap index.nodeOf).flatMap fun source =>
        source.properties.map fun entry => Occurrence.property entry.1 entry.2 :=
    List.flatMap_congr fun source listed =>
      SchemaNode.occurrences_of_unfolded (unfolded source listed)
  rw [properties, List.find?_flatMap, resourceProperty_eq_findSome? found, List.map_findSome?]
  simp only [find?_map_property]
  rfl

/-- A field that gives its name alone takes its notes from the property behind it. -/
theorem notes_resourceField_named (index : SchemaIndex) (resource : String) (direction : Direction)
    (text : String) :
    let field := index.resourceField resource direction (.named text)
    field.description = (index.resourceProperty resource text).bind index.descriptionOf ∧
      field.default = (index.resourceProperty resource text).bind index.defaultOf :=
  ⟨rfl, rfl⟩

/-- The field that a property starts has the notes of the property. -/
theorem Starts.notes {required : List String} {typing : Occurrence × TypeExpr}
    {field : FieldDefinition} (starts : index.Starts required typing field) {name : String}
    {schema : Schema} (property : typing.1 = .property name schema) :
    field.description = index.descriptionOf schema ∧ field.default = index.defaultOf schema := by
  cases starts with
  | property =>
      cases property
      exact ⟨rfl, rfl⟩
  | alternative => cases property

end SchemaIndex

namespace Synthesizer

open SchemaIndex

/-- Where no union is folded into the record of a resource schema, a resource field
has a property behind it exactly when the record has a field of its lower-camel
name. Given by its name alone it then has the description and the default of that
field, whichever way it is passed. -/
theorem resourceProperty_agrees {synthesizer : Synthesizer} {resource name : String}
    {node : SchemaNode} {definition : TypeDefinition} {fields : List FieldDefinition}
    (found : synthesizer.index.lookup resource = some node) (single : node.isUnion = false)
    (unfolded : ∀ parent ∈ node.allOf.filterMap synthesizer.index.nodeOf,
      parent.isUnion = true → parent.hasProperties = true)
    (built : (synthesizer.recordDefinition name node).1 = .ok definition)
    (flattened : definition.shape = .record fields) (text : String) :
    ((∃ property, synthesizer.index.resourceProperty resource text = some property) ↔
        ∃ field ∈ fields, field.name = Naming.lowerCamel text) ∧
      ∀ field ∈ fields, field.name = Naming.lowerCamel text → ∀ direction,
        let assembled := synthesizer.index.resourceField resource direction (.named text)
        assembled.description = field.description ∧ assembled.default = field.default := by
  have properties : ∀ source ∈ node :: node.allOf.filterMap synthesizer.index.nodeOf,
      source.isUnion = true → source.hasProperties = true := by
    rw [List.forall_mem_cons]
    exact ⟨fun union => absurd (single.symm.trans union) Bool.false_ne_true, unfolded⟩
  have search : (synthesizer.index.occurrences node).find?
      (fun occurrence => occurrence.name = Naming.lowerCamel text) =
        (synthesizer.index.resourceProperty resource text).map
          (Occurrence.property (Naming.lowerCamel text)) := find?_occurrences found properties
  have yields := yields_of_recordDefinition built
  constructor
  · have listed : Naming.lowerCamel text ∈ fields.map FieldDefinition.name ↔
        Naming.lowerCamel text ∈
          (synthesizer.index.occurrences node).map Occurrence.name := by
      rw [names_of_recordDefinition yields flattened, List.mem_eraseDups]
    rw [List.mem_map, List.mem_map] at listed
    rw [← Option.isSome_iff_exists, ← Option.isSome_map, ← search, List.find?_isSome, listed]
    simp only [decide_eq_true_eq]
  · intro field member named direction
    obtain ⟨typings, table, typed, led, rfl⟩ := exists_led_of_recordDefinition yields flattened
    -- The field was started by the first occurrence of its name, which is the
    -- property that the search comes to.
    obtain ⟨typing, first, starts⟩ := led.exists_first (fun _ _ => Starts.name_eq) member
    have occurrence : (synthesizer.index.occurrences node).find?
        (fun occurrence => occurrence.name = Naming.lowerCamel text) = some typing.1 := by
      rw [← occurrences_of_mapM_ok typed, List.find?_map, ← named]
      exact congrArg (Option.map Prod.fst) first
    rw [search] at occurrence
    obtain ⟨schema, backing, property⟩ := Option.map_eq_some_iff.1 occurrence
    have notes := starts.notes property.symm
    obtain ⟨description, default⟩ :=
      notes_resourceField_named synthesizer.index resource direction text
    rw [backing] at description default
    exact ⟨description.trans notes.1.symm, default.trans notes.2.symm⟩

/-! ## A property of a parent -/

def paintSchema : Schema :=
  .inline { type := some .string, description := some "Paint  colour.",
            default := some (.string "grey") }

/-- A record whose parent declares `zone` again, which counts for nothing, and
`colour`, which the record has from there. -/
def shelfNode : SchemaNode :=
  { properties := [("zone", textSchema)]
    allOf := [.inline { properties := [("zone", paintSchema), ("colour", paintSchema)] }] }

def shelfIndex : SchemaIndex where
  schemas := ⟨[("Shelf", .inline shelfNode)], by decide⟩

def colourField : FieldDefinition :=
  { FieldDefinition.withoutNotes "colour" "Colour" (.optional .string) true with
    description := some "Paint colour."
    default := some "\"grey\"" }

theorem recordDefinition_shelfNode :
    ((start shelfIndex).recordDefinition "Shelf" shelfNode).1 =
      .ok (.record "Shelf" none [optionalZoneField, colourField]) := by
  have label : ∀ property,
      shelfIndex.typing "Shelf" (.ok ⟨[], .property property textSchema⟩) =
        .ok (.property property textSchema, .string) :=
    typing_of_settled rfl rfl fun _ => rfl
  have paint : ∀ property,
      shelfIndex.typing "Shelf" (.ok ⟨[], .property property paintSchema⟩) =
        .ok (.property property paintSchema, .string) :=
    typing_of_settled rfl rfl fun _ => rfl
  have met : shelfIndex.itinerary [] shelfNode =
      [.ok ⟨[], .property "zone" textSchema⟩, .ok ⟨[], .property "zone" paintSchema⟩,
        .ok ⟨[], .property "colour" paintSchema⟩] := rfl
  have flattened : shelfIndex.flattened [] "Shelf" shelfNode =
      .ok [optionalZoneField, colourField] := by
    rw [SchemaIndex.flattened, met]
    simp only [List.mapM_cons, List.mapM_nil, label, paint]
    rfl
  have result : (shelfIndex.recordDefinition [] "Shelf" shelfNode).result = _ :=
    result_recordDefinition rfl
  rw [flattened] at result
  exact result

/-- The resource field has the notes of the parent's property. -/
theorem resourceProperty_agrees_shelf :
    shelfIndex.lookup "Shelf" = some shelfNode ∧
      (∃ property, shelfIndex.resourceProperty "Shelf" "Colour" = some property) ∧
      (shelfIndex.resourceField "Shelf" .input (.named "Colour")).description =
        some "Paint colour." ∧
      (shelfIndex.resourceField "Shelf" .input (.named "Colour")).default =
        some "\"grey\"" := by
  have found : (start shelfIndex).index.lookup "Shelf" = some shelfNode := rfl
  have unfolded : ∀ parent ∈ shelfNode.allOf.filterMap shelfIndex.nodeOf,
      parent.isUnion = true → parent.hasProperties = true := by
    change ∀ parent ∈ [_], _
    decide
  have name : colourField.name = Naming.lowerCamel "Colour" := by decide +kernel
  have member : colourField ∈ [optionalZoneField, colourField] := by simp
  obtain ⟨backed, agrees⟩ :=
    resourceProperty_agrees found rfl unfolded recordDefinition_shelfNode rfl "Colour"
  obtain ⟨description, default⟩ := agrees colourField member name .input
  exact ⟨found, backed.2 ⟨colourField, member, name⟩, description, default⟩

end Synthesizer

end SchemaCompiler
