import SchemaCompiler.Proofs.Naming
import SchemaCompiler.Proofs.Site

/-!
Contract: what a schema can reach, and indexes that agree on it.

Owns:
- `SchemaIndex.Reaches`, the schemas that references lead to: the inline tree
  of a schema, and that of every target in it;
- `SchemaIndex.Alike`, two indexes with the same reserved names in which every
  reference within reach has the same target. It goes over to every schema
  within reach (`Alike.part`, `Alike.target`);
- that two such indexes give the same answer to each of the questions that the
  synthesis asks: the node of a schema, its description, default and annotate
  flag, the names that a node requires, and the names of helper types.

Does not own: the synthesis itself (`SchemaCompiler.Proofs.TwoRuns`).
-/

namespace SchemaCompiler

namespace SchemaIndex

/-- The schemas that references lead to from `start`. -/
inductive Reaches (index : SchemaIndex) (start : Schema) : Schema → Prop where
  | here : Reaches index start start
  | part {node : SchemaNode} {schema : Schema} (reached : Reaches index start (.inline node))
      (direct : node.HasPart schema) : Reaches index start schema
  | target {target : Reference} {node : SchemaNode}
      (reached : Reaches index start (.reference target))
      (found : index.lookup target.schemaName = some node) : Reaches index start (.inline node)

/-- Two indexes with the same reserved names that look up every name within
reach of `start` alike. They may hold anything else, in any order. -/
structure Alike (left right : SchemaIndex) (start : Schema) : Prop where
  reserved : ∀ name, name ∈ left.reservedNames ↔ name ∈ right.reservedNames
  lookup : ∀ target : Reference, left.Reaches start (.reference target) →
    left.lookup target.schemaName = right.lookup target.schemaName

variable {left right : SchemaIndex} {start middle : Schema} {node : SchemaNode}

theorem Reaches.trans {schema : Schema} (first : left.Reaches start middle)
    (second : left.Reaches middle schema) : left.Reaches start schema := by
  induction second with
  | here => exact first
  | part _ direct inductionHypothesis => exact inductionHypothesis.part direct
  | target _ found inductionHypothesis => exact inductionHypothesis.target found

namespace Alike

theorem refl (index : SchemaIndex) (start : Schema) : Alike index index start :=
  ⟨fun _ => Iff.rfl, fun _ _ => rfl⟩

theorem within (alike : Alike left right start) (reached : left.Reaches start middle) :
    Alike left right middle :=
  ⟨alike.reserved, fun target further => alike.lookup target (reached.trans further)⟩

theorem part (alike : Alike left right (.inline node)) {schema : Schema}
    (direct : node.HasPart schema) : Alike left right schema :=
  alike.within (.part .here direct)

theorem target {target : Reference} (alike : Alike left right (.reference target))
    (found : left.lookup target.schemaName = some node) : Alike left right (.inline node) :=
  alike.within (.target .here found)

/-! ## What the synthesis reads off an index -/

theorem resolve_eq {target : Reference} (alike : Alike left right (.reference target)) :
    left.resolve target = right.resolve target :=
  alike.lookup target .here

theorem nodeOf_eq (alike : Alike left right start) : left.nodeOf start = right.nodeOf start := by
  cases start with
  | reference target => exact alike.resolve_eq
  | inline node => rfl

theorem soleParent_resolve_eq (alike : Alike left right (.inline node)) {target : Reference}
    (sole : node.soleParentReference? = some target) :
    left.resolve target = right.resolve target :=
  (alike.part (SchemaNode.hasPart_of_soleParentReference sole)).resolve_eq

theorem descriptionOf_eq (alike : Alike left right start) :
    left.descriptionOf start = right.descriptionOf start := by
  cases start with
  | reference target => simp only [descriptionOf, alike.resolve_eq]
  | inline node =>
      simp only [descriptionOf]
      cases sole : node.soleParentReference? with
      | none => rfl
      | some target => simp only [Option.bind_some, alike.soleParent_resolve_eq sole]

theorem defaultOf_eq (alike : Alike left right start) :
    left.defaultOf start = right.defaultOf start := by
  simp only [defaultOf, alike.nodeOf_eq]

theorem isAnnotatable_eq (alike : Alike left right start) :
    left.isAnnotatable start = right.isAnnotatable start := by
  have delegates : left.delegateOf start = right.delegateOf start := by
    cases start with
    | reference target => exact alike.resolve_eq
    | inline node =>
        simp only [delegateOf]
        cases sole : node.soleParentReference? with
        | none => rfl
        | some target => exact alike.soleParent_resolve_eq sole
  simp only [isAnnotatable, delegates]

theorem requiredNames_eq (alike : Alike left right (.inline node)) :
    left.requiredNames node = right.requiredNames node := by
  have nodes : node.allOf.filterMap left.nodeOf = node.allOf.filterMap right.nodeOf :=
    List.filterMap_congr fun member listed => (alike.part (.allOf listed)).nodeOf_eq
  simp only [requiredNames, nodes]

/-- The name of a helper type depends on the exported names of its parent and of
the declared schemas. -/
theorem helperName_eq (alike : Alike left right start) {parent other : String}
    (parents : Naming.exportedName parent = Naming.exportedName other) (property : String) :
    left.helperName parent property = right.helperName other property := by
  unfold helperName Naming.helperName
  rw [parents, Naming.firstFree_congr alike.reserved]

theorem withProperty_eq (alike : Alike left right start) (table : FieldTable)
    (property : String) (type : TypeExpr) (optional : Bool) :
    left.withProperty table property start type optional =
      right.withProperty table property start type optional := by
  simp only [withProperty, propertyField, alike.descriptionOf_eq, alike.defaultOf_eq,
    alike.isAnnotatable_eq]

end Alike

end SchemaIndex

end SchemaCompiler
