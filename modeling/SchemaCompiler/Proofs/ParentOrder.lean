import SchemaCompiler.Proofs.Merging

/-!
Contract: records whose parents come in another order.

Owns:
- `SchemaIndex.itinerary_perm`: the same is met along the way, in another order;
- `Synthesizer.recordDefinition_reordered`: a record meets a cycle in any order of
  its parents or in none, and neither the names of its fields nor which of them
  are optional depends on the order.

A cycle stops flattening wherever it is met. A field is optional by what the
parents together require and declare. Neither looks at the order, whereas the
type of a field and its place do.

Does not own: what the required names of a field make of it
(`SchemaCompiler.Proofs.Required`).
-/

namespace SchemaCompiler

/-! ## Failures -/

theorem exists_error_iff {ε α : Type} {result : Except ε α} :
    (∃ fault, result = .error fault) ↔ ¬ ∃ value, result = .ok value := by
  cases result <;> simp

theorem exists_error_map_iff {ε α β : Type} {result : Except ε α} {function : α → β} :
    (∃ fault, result.map function = .error fault) ↔ ∃ fault, result = .error fault := by
  cases result <;> simp [Except.map]

/-- Whether a list is run through does not depend on its order. -/
theorem exists_error_mapM_iff {ε α β : Type} {function : α → Except ε β} {items others : List α}
    (reordered : items.Perm others) :
    (∃ fault, items.mapM function = .error fault) ↔
      ∃ fault, others.mapM function = .error fault := by
  simp only [exists_error_iff, exists_mapM_ok_iff, reordered.mem_iff]

namespace SchemaIndex

variable {index : SchemaIndex} {node : SchemaNode} {members : List Schema}

theorem itinerary_perm (index : SchemaIndex) (trail : List String)
    (reordered : members.Perm node.allOf) :
    (index.itinerary trail { node with allOf := members }).Perm (index.itinerary trail node) :=
  (reordered.flatMap_right _).append_left _

theorem exists_error_flattened_iff {trail : List String} {name : String}
    (reordered : members.Perm node.allOf) :
    (∃ cycle, index.flattened trail name { node with allOf := members } = .error cycle) ↔
      ∃ cycle, index.flattened trail name node = .error cycle := by
  simp only [flattened, exists_error_map_iff]
  exact exists_error_mapM_iff (index.itinerary_perm trail reordered)

/-- A node with parents has something to flatten. -/
theorem isEmptySchema_of_allOf (parents : node.allOf ≠ []) : node.isEmptySchema = false := by
  simp [SchemaNode.isEmptySchema, SchemaNode.isComposite, parents]

theorem exists_error_recordDefinition_iff {trail : List String} {name : String}
    (reordered : members.Perm node.allOf) :
    (∃ cycle, (index.recordDefinition trail name { node with allOf := members }).result =
        .error cycle) ↔
      ∃ cycle, (index.recordDefinition trail name node).result = .error cycle := by
  by_cases parentless : node.allOf = []
  · have same : members = node.allOf := by
      rw [parentless] at reordered ⊢
      exact reordered.eq_nil
    have unchanged : { node with allOf := members } = node := by
      cases node
      cases same
      rfl
    rw [unchanged]
  · have others : members ≠ [] := fun nothing =>
      parentless (List.Perm.nil_eq (nothing ▸ reordered)).symm
    have recognised : ({ node with allOf := members } : SchemaNode).enumeration? name =
        node.enumeration? name := rfl
    have aliased : index.mapAlias trail { node with allOf := members } =
        index.mapAlias trail node := rfl
    rw [result_recordDefinition (isEmptySchema_of_allOf parentless),
      result_recordDefinition (isEmptySchema_of_allOf others), recognised, aliased]
    cases node.enumeration? name with
    | some definition => rfl
    | none =>
        cases index.mapAlias trail node with
        | error cycle => rfl
        | ok mapping =>
            cases mapping with
            | some target => rfl
            | none =>
                -- Only the last case looks at the parents.
                refine Iff.trans exists_error_map_iff (Iff.trans ?_ exists_error_map_iff.symm)
                exact exists_error_flattened_iff reordered

/-! ## Fields -/

variable {α : Type}

/-- What the parents add up to is the same in any order. -/
theorem flatMap_parents_perm (index : SchemaIndex) (reordered : members.Perm node.allOf)
    (part : SchemaNode → List α) :
    ((members.filterMap index.nodeOf).flatMap part).Perm
      ((node.allOf.filterMap index.nodeOf).flatMap part) :=
  (reordered.filterMap index.nodeOf).flatMap_right part

theorem occurrences_perm (index : SchemaIndex) (reordered : members.Perm node.allOf) :
    (index.occurrences { node with allOf := members }).Perm (index.occurrences node) :=
  (index.flatMap_parents_perm reordered SchemaNode.occurrences).append_left _

theorem requiredNames_perm (index : SchemaIndex) (reordered : members.Perm node.allOf) :
    (index.requiredNames { node with allOf := members }).Perm (index.requiredNames node) :=
  (index.flatMap_parents_perm reordered SchemaNode.required).append_left _

theorem declaredNames_perm (index : SchemaIndex) (reordered : members.Perm node.allOf) :
    (index.declaredNames { node with allOf := members }).Perm (index.declaredNames node) :=
  (index.flatMap_parents_perm reordered SchemaNode.propertyNames).append_left _

end SchemaIndex

namespace Synthesizer

open SchemaIndex

/-- In another order of its parents a node meets a cycle if it did before, and a
record of it has fields of the same names with the same flags. -/
theorem recordDefinition_reordered {synthesizer : Synthesizer} {name : String} {node : SchemaNode}
    {members : List Schema} (reordered : members.Perm node.allOf) :
    let other : SchemaNode := { node with allOf := members }
    ((∃ cycle, (synthesizer.recordDefinition name other).1 = .error cycle) ↔
        ∃ cycle, (synthesizer.recordDefinition name node).1 = .error cycle) ∧
      ∀ definition redefinition fields others,
        (synthesizer.recordDefinition name node).1 = .ok definition →
          definition.shape = .record fields →
            (synthesizer.recordDefinition name other).1 = .ok redefinition →
              redefinition.shape = .record others →
                (∀ property, property ∈ others.map FieldDefinition.name ↔
                  property ∈ fields.map FieldDefinition.name) ∧
                ∀ field ∈ fields, ∀ counterpart ∈ others, counterpart.name = field.name →
                  counterpart.optional = field.optional := by
  constructor
  · have result : ∀ node, (synthesizer.recordDefinition name node).1 =
        (synthesizer.index.recordDefinition synthesizer.trail name node).result := fun node =>
      steady_recordDefinition synthesizer.index synthesizer.trail name node synthesizer.helpers
    rw [result, result]
    exact exists_error_recordDefinition_iff reordered
  · intro definition redefinition fields others built flattened rebuilt reflattened
    have yields := yields_of_recordDefinition built
    have again := yields_of_recordDefinition rebuilt
    constructor
    · intro property
      rw [names_of_recordDefinition yields flattened, names_of_recordDefinition again reflattened,
        List.mem_eraseDups, List.mem_eraseDups]
      exact ((occurrences_perm _ reordered).map Occurrence.name).mem_iff
    · intro field member counterpart listed same
      have before := optional_iff_of_recordDefinition yields flattened field member
      have after := optional_iff_of_recordDefinition again reflattened counterpart listed
      rw [same, (requiredNames_perm _ reordered).mem_iff,
        (declaredNames_perm _ reordered).mem_iff] at after
      exact Bool.eq_iff_iff.2 (after.trans before.symm)

/-! ## An alternative before and after a property of its name -/

/-- A parent that requires the second alternative of `chargeNode` and declares it
as a property. -/
def labelNode : SchemaNode :=
  { properties := [("label", textSchema)], required := ["label"] }

def freightNode : SchemaNode :=
  { allOf := [.inline chargeNode, .inline labelNode] }

def requiredLabelField : FieldDefinition := .withoutNotes "label" "Label" .string false

theorem recordDefinition_freightNode :
    ((start {}).recordDefinition "Freight" freightNode).1 =
        .ok (.record "Freight" none [codeField, requiredLabelField]) ∧
      ((start {}).recordDefinition "Freight"
          { freightNode with allOf := [.inline labelNode, .inline chargeNode] }).1 =
        .ok (.record "Freight" none [requiredLabelField, codeField]) := by
  constructor <;>
    simp only [recordDefinition, start, SchemaIndex.recordDefinition, freightNode, labelNode,
      textSchema, contribution, properties, parents, SchemaIndex.propertyType, typeOf_primitive,
      unionFields_chargeNode] <;>
    rfl

/-- The property makes the alternative required from either side. -/
theorem recordDefinition_reordered_freight :
    (¬ ∃ cycle, ((start {}).recordDefinition "Freight"
        { freightNode with allOf := [.inline labelNode, .inline chargeNode] }).1 = .error cycle) ∧
      (∀ property, property ∈ ["label", "code"] ↔ property ∈ ["code", "label"]) ∧
      ∀ field ∈ [codeField, requiredLabelField], ∀ counterpart ∈ [requiredLabelField, codeField],
        counterpart.name = field.name → counterpart.optional = field.optional := by
  have swapped : [Schema.inline labelNode, .inline chargeNode].Perm freightNode.allOf :=
    .swap _ _ _
  obtain ⟨before, after⟩ := recordDefinition_freightNode
  obtain ⟨failing, agreeing⟩ := recordDefinition_reordered swapped
  obtain ⟨names, flags⟩ := agreeing _ _ _ _ before rfl after rfl
  refine ⟨fun failed => ?_, names, flags⟩
  obtain ⟨cycle, failure⟩ := failing.1 failed
  rw [before] at failure
  cases failure

end Synthesizer

end SchemaCompiler
