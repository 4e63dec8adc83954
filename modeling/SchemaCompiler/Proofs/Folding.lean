import SchemaCompiler.Proofs.Alternatives
import SchemaCompiler.Proofs.Merging

/-!
Contract: unions that are folded into a record.

Owns:
- `Occurrence.identifier`, the identifier that an occurrence asks for, and
  `SchemaIndex.Heads`, the first occurrence of its name;
- `SchemaIndex.exists_identifier_iff`: the identifiers in a flattened record are
  those of the first occurrences;
- `Synthesizer.recordDefinition_folds`: a union that is folded in has a record of
  its own, with as many identifiers as alternatives, and one of its alternatives
  is represented in the flattened record exactly when a first occurrence has its
  identifier.

The record is keyed by the names that alternatives are written under, and these
may repeat. The numbers that set alternatives of one name apart are in their
identifiers only, so all but the first of them are lost.

Does not own: the identifiers themselves (`SchemaCompiler.Proofs.Alternatives`).
-/

namespace SchemaCompiler

/-- The identifier of the field that an occurrence starts. -/
def Occurrence.identifier : Occurrence → String
  | .property name _ => Naming.exportedName name
  | .alternative variant => variant.exportedName

namespace SchemaIndex

open Minting

variable {index : SchemaIndex} {trail : List String} {name : String} {node : SchemaNode}
  {definition : TypeDefinition} {fields : List FieldDefinition}

/-! ## Identifiers of fields -/

/-- The occurrence is the first of its name. -/
def Heads (index : SchemaIndex) (node : SchemaNode) (occurrence : Occurrence) : Prop :=
  (index.occurrences node).find? (fun other => other.name = occurrence.name) = some occurrence

/-- There is one first occurrence of a name. -/
theorem Heads.eq_of_name {first other : Occurrence} (heads : index.Heads node first)
    (others : index.Heads node other) (same : first.name = other.name) : first = other := by
  rw [Heads, same] at heads
  exact Option.some.inj (heads.symm.trans others)

theorem exists_heads_of_mem {occurrence : Occurrence}
    (member : occurrence ∈ index.occurrences node) :
    ∃ first, index.Heads node first ∧ first.name = occurrence.name := by
  have found : ((index.occurrences node).find? fun other => other.name = occurrence.name).isSome :=
    List.find?_isSome.2 ⟨occurrence, member, decide_eq_true rfl⟩
  obtain ⟨first, atFirst⟩ := Option.isSome_iff_exists.1 found
  have named : first.name = occurrence.name := by simpa using List.find?_some atFirst
  exact ⟨first, by rw [Heads, named, atFirst], named⟩

theorem Starts.exportedName_eq {required : List String} {typing : Occurrence × TypeExpr}
    {field : FieldDefinition} (starts : index.Starts required typing field) :
    field.exportedName = typing.1.identifier := by
  cases starts <;> rfl

/-- A field has its name and its identifier from one first occurrence. -/
theorem exists_heads_of_recordDefinition
    (built : Yields (index.recordDefinition trail name node) definition)
    (flattened : definition.shape = .record fields) :
    ∀ field ∈ fields, ∃ occurrence, index.Heads node occurrence ∧
      occurrence.name = field.name ∧ occurrence.identifier = field.exportedName := by
  intro field member
  obtain ⟨typings, table, typed, led, rfl⟩ := exists_led_of_recordDefinition built flattened
  obtain ⟨typing, first, starts⟩ := led.exists_first (fun _ _ => Starts.name_eq) member
  refine ⟨typing.1, ?_, starts.name_eq.symm, starts.exportedName_eq.symm⟩
  rw [Heads, ← occurrences_of_mapM_ok typed, List.find?_map, ← starts.name_eq,
    Function.comp_def, first]
  rfl

theorem exists_field_of_heads
    (built : Yields (index.recordDefinition trail name node) definition)
    (flattened : definition.shape = .record fields) {occurrence : Occurrence}
    (heads : index.Heads node occurrence) :
    ∃ field ∈ fields, field.name = occurrence.name ∧
      field.exportedName = occurrence.identifier := by
  have listed : occurrence.name ∈ fields.map FieldDefinition.name := by
    rw [names_of_recordDefinition built flattened, List.mem_eraseDups]
    exact List.mem_map_of_mem (List.mem_of_find?_eq_some heads)
  obtain ⟨field, member, named⟩ := List.mem_map.1 listed
  obtain ⟨other, otherHeads, otherNamed, identifier⟩ :=
    exists_heads_of_recordDefinition built flattened field member
  have same : other = occurrence := otherHeads.eq_of_name heads (otherNamed.trans named)
  exact ⟨field, member, named, by rw [← identifier, same]⟩

/-- The identifiers in a flattened record are those of the first occurrences. -/
theorem exists_identifier_iff
    (built : Yields (index.recordDefinition trail name node) definition)
    (flattened : definition.shape = .record fields) (identifier : String) :
    (∃ field ∈ fields, field.exportedName = identifier) ↔
      ∃ occurrence, index.Heads node occurrence ∧ occurrence.identifier = identifier := by
  constructor
  · rintro ⟨field, member, rfl⟩
    obtain ⟨occurrence, heads, -, same⟩ :=
      exists_heads_of_recordDefinition built flattened field member
    exact ⟨occurrence, heads, same⟩
  · rintro ⟨occurrence, heads, rfl⟩
    obtain ⟨field, member, -, same⟩ := exists_field_of_heads built flattened heads
    exact ⟨field, member, same⟩

/-! ## Folded unions -/

theorem mem_encounters {source : Source} (listed : source ∈ index.sources trail node)
    (bare : source.node.hasProperties = false) {variant : Variant}
    (named : variant ∈ Variant.ofNode source.node) :
    ⟨source.trail, .alternative variant⟩ ∈ index.encounters trail node := by
  refine List.mem_flatMap.2 ⟨source, listed, List.mem_map_of_mem ?_⟩
  rw [SchemaNode.occurrences, bare]
  exact List.mem_map_of_mem named

/-- A union that is folded into a record has fields of its own. -/
theorem exists_unionFields_of_recordDefinition
    (built : Yields (index.recordDefinition trail name node) definition)
    (flattened : definition.shape = .record fields) {source : Source}
    (listed : source ∈ index.sources trail node) (bare : source.node.hasProperties = false) :
    ∃ alternatives, index.unionFields source.trail source.node = .ok alternatives := by
  obtain ⟨typings, -, typed, -, -⟩ := exists_led_of_recordDefinition built flattened
  refine exists_mapM_ok_iff.2 fun variant named => ?_
  have met : .ok ⟨source.trail, .alternative variant⟩ ∈ index.itinerary trail node := by
    rw [itinerary_eq_of_mapM_ok typed]
    exact List.mem_map_of_mem (mem_encounters listed bare named)
  obtain ⟨typing, outcome⟩ := exists_mapM_ok_iff.1 ⟨typings, typed⟩ _ met
  obtain ⟨type, ofMember, -⟩ := exists_of_map_eq_ok outcome
  exact ⟨_, variantField_eq_ok_iff.2 ⟨type, ofMember, rfl⟩⟩

/-- The name of an alternative that is folded in occurs. -/
theorem exists_heads_of_alternative {source : Source} (listed : source ∈ index.sources trail node)
    (bare : source.node.hasProperties = false) {alternatives : List FieldDefinition}
    (made : index.unionFields source.trail source.node = .ok alternatives) :
    ∀ alternative ∈ alternatives, ∃ first, index.Heads node first ∧
      first.name = alternative.name := by
  intro alternative member
  obtain ⟨variant, paired, outcome⟩ := exists_of_mem_mapM_ok made alternative member
  obtain ⟨type, -, rfl⟩ := variantField_eq_ok_iff.1 outcome
  have met := mem_encounters listed bare (List.of_mem_zip paired).1
  have occurs : .alternative variant ∈ index.occurrences node :=
    index.occurrences_encounters trail node ▸ List.mem_map_of_mem met
  exact exists_heads_of_mem occurs

end SchemaIndex

namespace Synthesizer

open SchemaIndex

/-- A source without properties that is folded into a record has a record of its
own as a union, with one identifier for each alternative. Such an alternative is
represented in the flattened record exactly when the first occurrence of its
name has its identifier, or else the first occurrence of another name has it. -/
theorem recordDefinition_folds {synthesizer : Synthesizer} {name : String} {node : SchemaNode}
    {definition : TypeDefinition} {fields : List FieldDefinition}
    (built : (synthesizer.recordDefinition name node).1 = .ok definition)
    (flattened : definition.shape = .record fields) {source : Source}
    (listed : source ∈ synthesizer.index.sources synthesizer.trail node)
    (bare : source.node.hasProperties = false) :
    ∃ alternatives : List FieldDefinition,
      (∀ label, ({ synthesizer with trail := source.trail } : Synthesizer).unionDefinition label
          source.node =
        .ok (.record (Naming.exportedName label) source.node.normalDescription alternatives)) ∧
      alternatives.length = source.node.unionMembers.length ∧
      (alternatives.map FieldDefinition.exportedName).Nodup ∧
      ∀ alternative ∈ alternatives, ∃ first, synthesizer.index.Heads node first ∧
        first.name = alternative.name ∧
        ((∃ field ∈ fields, field.exportedName = alternative.exportedName) ↔
          first.identifier = alternative.exportedName ∨
            ∃ other, synthesizer.index.Heads node other ∧ other.name ≠ alternative.name ∧
              other.identifier = alternative.exportedName) := by
  have yields := yields_of_recordDefinition built
  obtain ⟨alternatives, made⟩ :=
    exists_unionFields_of_recordDefinition yields flattened listed bare
  refine ⟨alternatives, fun label => ?_, length_of_unionFields made,
    nodup_exportedNames_of_unionFields made, fun alternative member => ?_⟩
  · change (synthesizer.index.unionFields source.trail source.node).map _ = _
    rw [made]
    rfl
  · obtain ⟨first, heads, named⟩ := exists_heads_of_alternative listed bare made alternative member
    refine ⟨first, heads, named, ?_⟩
    rw [exists_identifier_iff yields flattened]
    constructor
    · rintro ⟨occurrence, others, same⟩
      by_cases again : occurrence.name = alternative.name
      · exact Or.inl ((heads.eq_of_name others (named.trans again.symm)).symm ▸ same)
      · exact Or.inr ⟨occurrence, others, again, same⟩
    · rintro (same | ⟨occurrence, others, -, same⟩)
      · exact ⟨first, heads, same⟩
      · exact ⟨occurrence, others, same⟩

/-! ## Two alternatives of one name -/

def zoneNode : SchemaNode :=
  { properties := [("zone", textSchema)] }

/-- A union of two texts, which are written under one name. -/
def pairNode : SchemaNode :=
  { oneOf := [textSchema, textSchema] }

def targetNode : SchemaNode :=
  { allOf := [.inline zoneNode, .inline pairNode] }

def targetFields : List FieldDefinition := [optionalZoneField, firstTextField]

theorem unionFields_pairNode :
    SchemaIndex.unionFields {} [] pairNode = .ok [firstTextField, secondTextField] := by
  have named : Variant.ofNode pairNode =
      [⟨"string", "String", textSchema⟩, ⟨"string", "String2", textSchema⟩] := rfl
  simp only [unionFields, named, List.mapM_cons, List.mapM_nil, variantField, textSchema,
    typeOf_primitive]
  rfl

theorem unionDefinition_pairNode (label : String) :
    (start {}).unionDefinition label pairNode =
      .ok (.record (Naming.exportedName label) none [firstTextField, secondTextField]) := by
  change (SchemaIndex.unionFields {} [] pairNode).map _ = _
  rw [unionFields_pairNode]
  rfl

theorem recordDefinition_targetNode :
    ((start {}).recordDefinition "Target" targetNode).1 =
      .ok (.record "Target" none targetFields) := by
  simp only [recordDefinition, start, SchemaIndex.recordDefinition, targetNode, zoneNode,
    textSchema, contribution, properties, parents, SchemaIndex.propertyType, typeOf_primitive,
    unionFields_pairNode]
  rfl

/-- The first alternative is represented, and the second one is not. -/
theorem recordDefinition_folds_target :
    (∃ field ∈ targetFields, field.exportedName = "String") ∧
      ¬ ∃ field ∈ targetFields, field.exportedName = "String2" := by
  have listed : (⟨[], pairNode⟩ : Source) ∈ SchemaIndex.sources {} [] targetNode :=
    List.mem_cons_of_mem _ (List.mem_cons_of_mem _ List.mem_cons_self)
  obtain ⟨alternatives, union, -, -, each⟩ :=
    recordDefinition_folds recordDefinition_targetNode rfl listed rfl
  have made : Except.ok (TypeDefinition.record "" none alternatives) =
      .ok (.record "" none [firstTextField, secondTextField]) :=
    (union "").symm.trans (unionDefinition_pairNode "")
  cases made
  have leading : ({} : SchemaIndex).Heads targetNode
      (.alternative ⟨"string", "String", textSchema⟩) := rfl
  constructor
  · obtain ⟨first, heads, named, represented⟩ := each _ List.mem_cons_self
    cases heads.eq_of_name leading named
    exact represented.2 (Or.inl rfl)
  · obtain ⟨first, heads, named, represented⟩ :=
      each _ (List.mem_cons_of_mem _ List.mem_cons_self)
    cases heads.eq_of_name leading named
    intro found
    rcases represented.1 found with same | ⟨other, others, different, same⟩
    · exact absurd same (by decide)
    · have occurs : other ∈ SchemaIndex.occurrences {} targetNode :=
        List.mem_of_find?_eq_some others
      have either : other = .property "zone" textSchema ∨ other.name = "string" := by
        rcases List.mem_cons.1 occurs with rfl | later
        · exact Or.inl rfl
        · rcases List.mem_cons.1 later with rfl | last
          · exact Or.inr rfl
          · exact Or.inr (List.mem_singleton.1 last ▸ rfl)
      rcases either with rfl | repeated
      · exact absurd same (by decide)
      · exact different repeated

/-- Not every alternative that is folded in is represented. -/
theorem recordDefinition_loses_alternative :
    ¬ ∀ (synthesizer : Synthesizer) (name : String) (node : SchemaNode)
        (definition : TypeDefinition) (fields : List FieldDefinition),
      (synthesizer.recordDefinition name node).1 = .ok definition →
        definition.shape = .record fields →
          ∀ source ∈ node.allOf.filterMap (synthesizer.index.sourceOf? synthesizer.trail),
            source.node.isUnion = true → source.node.hasProperties = false →
              ∀ label union,
                ({ synthesizer with trail := source.trail } : Synthesizer).unionDefinition label
                    source.node = .ok union →
                  ∀ alternative ∈ union.fields, ∃ field ∈ fields,
                    field.exportedName = alternative.exportedName := by
  intro rule
  have listed : (⟨[], pairNode⟩ : Source) ∈
      targetNode.allOf.filterMap (SchemaIndex.sourceOf? {} []) :=
    List.mem_cons_of_mem _ List.mem_cons_self
  obtain ⟨field, member, same⟩ := rule (start {}) "Target" targetNode _ _
    recordDefinition_targetNode rfl _ listed rfl rfl "" _ (unionDefinition_pairNode "")
    secondTextField (List.mem_cons_of_mem _ List.mem_cons_self)
  revert field
  decide

end Synthesizer

end SchemaCompiler
