import SchemaCompiler.Proofs.Optionality

/-!
Contract: which fields of a flattened record are mandatory.

Owns:
- `FieldDefinition.Mandatory`, a field that is written without any trace of
  being optional;
- `FieldTable.Settled`, the invariant of a table under construction: a field is
  optional unless its name is required and already met as a property;
- `Synthesizer.recordDefinition_mandatory_iff`, the rule for every flattened
  record.

The required names of a node and of all its parents are collected before any
field is made, so the order of the parents plays no part. The alternatives of a
union are never looked up among them: an alternative is mandatory only when a
property of its name occurs as well.

Does not own: how the type, the tag and the flag of a field agree
(`SchemaCompiler.Proofs.Optionality`).
-/

namespace SchemaCompiler

/-! ## Fields -/

namespace FieldDefinition

/-- A field that is not optional, in its flag, its tag and its type. -/
structure Mandatory (field : FieldDefinition) : Prop where
  flag : field.optional = false
  tag : field.tag.body = field.tag.name
  bare : ∀ base, field.type ≠ .optional base

theorem Layered.mandatory_iff {field : FieldDefinition} (layered : field.Layered) :
    field.Mandatory ↔ field.optional = false := by
  constructor
  · exact Mandatory.flag
  · intro flag
    have consistent := layered.consistent
    have untagged : field.tag.optional = false := consistent.tagged.trans flag
    have body : field.tag.body = field.tag.name := by
      rw [FieldTag.body, untagged]
      rfl
    exact ⟨flag, body, consistent.bare flag⟩

end FieldDefinition

/-! ## Tables -/

namespace FieldTable

/-- Every property taken up has a field, each field stands under its own name,
and it is optional unless its name is required and taken up. -/
structure Settled (required known : List String) (table : FieldTable) : Prop where
  covered : ∀ name ∈ known, name ∈ table.keys
  each : ∀ name field, table.find? name = some field →
    field.name = name ∧ (field.optional = true ↔ name ∉ required ∨ name ∉ known)

variable {required known : List String} {table : FieldTable}

theorem settled_empty (required : List String) : Settled required [] {} := by
  constructor
  · intro name member
    cases member
  · intro name field found
    cases found

/-- A settled table is marked by the flags of its fields. -/
theorem settled_iff_marked :
    Settled required known table ↔
      Marked (fun field => field.optional = true ↔ field.name ∉ required)
        (fun field => field.optional = true) known table := by
  have flag : ∀ (name : String) (field : FieldDefinition), field.name = name →
      ((field.optional = true ↔ name ∉ required ∨ name ∉ known) ↔
        if name ∈ known then (field.optional = true ↔ field.name ∉ required)
        else field.optional = true) := by
    rintro name field rfl
    split <;> simp_all
  constructor
  · intro settled
    refine ⟨settled.covered, fun name field found => ?_⟩
    obtain ⟨named, held⟩ := settled.each name field found
    exact ⟨named, (flag name field named).1 held⟩
  · intro marked
    refine ⟨marked.covered, fun name field found => ?_⟩
    obtain ⟨named, held⟩ := marked.each name field found
    exact ⟨named, (flag name field named).2 held⟩

end FieldTable

namespace SchemaIndex

open Minting

theorem optional_of_mem_unionFields {index : SchemaIndex} {trail : List String} {node : SchemaNode}
    {fields : List FieldDefinition} (made : index.unionFields trail node = .ok fields) :
    ∀ field ∈ fields, field.optional = true := by
  intro field member
  obtain ⟨variant, -, built⟩ := exists_of_mem_mapM_ok made field member
  obtain ⟨type, -, rfl⟩ := exists_of_map_eq_ok built
  rfl

/-- Flattening under the required names keeps a table settled. -/
theorem keptByFlattening_settled (index : SchemaIndex) (required : List String) :
    index.KeptByFlattening required (FieldTable.Settled required) := by
  have marked : FieldTable.Settled required =
      FieldTable.Marked (fun field => field.optional = true ↔ field.name ∉ required)
        fun field => field.optional = true :=
    funext₂ fun _ _ => propext FieldTable.settled_iff_marked
  rw [marked]
  apply keptByFlattening_marked
  · intro property schema type
    simp [propertyField]
  · intro field held
    rcases held with taken | optional
    · simp only [FieldTable.merged, Bool.and_eq_true, taken]
      simp
    · simp [FieldTable.merged, optional]
  · intro trail source fields made
    exact optional_of_mem_unionFields made

/-! ## Records -/

section Flattened

variable {index : SchemaIndex} {trail : List String} {name : String} {node : SchemaNode}
  {definition : TypeDefinition} {fields : List FieldDefinition}

theorem optional_iff_of_recordDefinition
    (built : Yields (index.recordDefinition trail name node) definition)
    (flattened : definition.shape = .record fields) :
    ∀ field ∈ fields, (field.optional = true ↔
      field.name ∉ index.requiredNames node ∨ field.name ∉ index.declaredNames node) := by
  have kept := index.keptByFlattening_settled (index.requiredNames node)
  obtain ⟨table, same, settled⟩ :=
    kept.recordDefinition (FieldTable.settled_empty _) built flattened
  intro field member
  obtain ⟨key, found⟩ := OrderedTable.exists_find?_of_mem_values (same ▸ member)
  obtain ⟨named, flag⟩ := settled.each key field found
  rwa [named]

theorem layered_of_recordDefinition
    (built : Yields (index.recordDefinition trail name node) definition)
    (flattened : definition.shape = .record fields) : ∀ field ∈ fields, field.Layered := by
  have layered : definition.Layered := (defines_of_recordDefinition built).layered
  rw [TypeDefinition.Layered, flattened] at layered
  exact layered

end Flattened

end SchemaIndex

namespace Synthesizer

variable {synthesizer : Synthesizer} {name : String} {node : SchemaNode}
  {definition : TypeDefinition} {fields : List FieldDefinition}

theorem yields_of_recordDefinition
    (built : (synthesizer.recordDefinition name node).1 = .ok definition) :
    Minting.Yields (synthesizer.index.recordDefinition synthesizer.trail name node) definition :=
  ⟨synthesizer.helpers, built⟩

/-- In a flattened record a field is mandatory exactly when the node or one of
its parents requires its name and one of them declares a property of that name,
in whatever order. In particular a required name makes its field mandatory
wherever it is declared as a property, and every other field is optional. -/
theorem recordDefinition_mandatory_iff
    (built : (synthesizer.recordDefinition name node).1 = .ok definition)
    (flattened : definition.shape = .record fields) :
    ∀ field ∈ fields,
      (field.Mandatory ↔ field.name ∈ synthesizer.index.requiredNames node ∧
          field.name ∈ synthesizer.index.declaredNames node) ∧
        (field.optional = true ↔ ¬ field.Mandatory) := by
  intro field member
  have yields := yields_of_recordDefinition built
  have optional := SchemaIndex.optional_iff_of_recordDefinition yields flattened field member
  have layered := SchemaIndex.layered_of_recordDefinition yields flattened field member
  have flag : field.optional = true ↔ ¬ field.Mandatory := by
    rw [layered.mandatory_iff, Bool.not_eq_false]
  refine ⟨?_, flag⟩
  rw [← Classical.not_not (a := field.Mandatory), ← flag, optional, not_or, Classical.not_not,
    Classical.not_not]

/-! ## A required name that only an alternative carries -/

/-- A union of an alternative called `code` and one called `label`. -/
def chargeNode : SchemaNode :=
  { oneOf := [
      .inline { title := some "code", type := some .integer },
      .inline { title := some "label", type := some .string }] }

/-- A record whose first parent requires two names. It declares a property for
one of them; the other is an alternative of the second parent. -/
def tariffNode : SchemaNode :=
  { allOf := [
      .inline { properties := [("zone", .inline { type := some .string })]
                required := ["zone", "code"] },
      .inline chargeNode] }

def codeField : FieldDefinition := .withoutNotes "code" "Code" (.optional .integer) true

def labelField : FieldDefinition := .withoutNotes "label" "Label" (.optional .string) true

theorem unionFields_chargeNode :
    SchemaIndex.unionFields {} [] chargeNode = .ok [codeField, labelField] := by
  have named : Variant.ofNode chargeNode =
      [⟨"code", "Code", .inline { title := some "code", type := some .integer }⟩,
        ⟨"label", "Label", .inline { title := some "label", type := some .string }⟩] := rfl
  simp only [SchemaIndex.unionFields, named, List.mapM_cons, List.mapM_nil,
    SchemaIndex.variantField, SchemaIndex.typeOf_primitive]
  rfl

theorem recordDefinition_tariffNode :
    ((start {}).recordDefinition "Tariff" tariffNode).1 =
      .ok (.record "Tariff" none [SchemaIndex.zoneField, codeField, labelField]) := by
  simp only [recordDefinition, start, SchemaIndex.recordDefinition, tariffNode,
    SchemaIndex.contribution, SchemaIndex.properties, SchemaIndex.parents,
    SchemaIndex.propertyType, SchemaIndex.typeOf_primitive, unionFields_chargeNode]
  rfl

/-- The property is mandatory, the alternative is not. -/
theorem recordDefinition_mandatory_iff_tariff :
    SchemaIndex.zoneField.Mandatory ∧ ¬ codeField.Mandatory := by
  have rule := recordDefinition_mandatory_iff recordDefinition_tariffNode rfl
  have zone := (rule _ List.mem_cons_self).1
  have code := (rule _ (List.mem_cons_of_mem _ List.mem_cons_self)).2
  exact ⟨zone.2 ⟨by decide, by decide⟩, code.1 rfl⟩

/-- Not every field with a required name is mandatory. -/
theorem recordDefinition_leaves_required_optional :
    ¬ ∀ (synthesizer : Synthesizer) (name : String) (node : SchemaNode)
        (definition : TypeDefinition) (fields : List FieldDefinition),
      (synthesizer.recordDefinition name node).1 = .ok definition →
        definition.shape = .record fields →
          ∀ field ∈ fields, field.name ∈ synthesizer.index.requiredNames node →
            field.Mandatory := by
  intro rule
  have required : codeField.name ∈ SchemaIndex.requiredNames {} tariffNode := by decide
  have mandatory := rule (start {}) "Tariff" tariffNode _ _ recordDefinition_tariffNode rfl
    codeField (List.mem_cons_of_mem _ List.mem_cons_self) required
  have flag : true = false := mandatory.flag
  cases flag

end Synthesizer

end SchemaCompiler
