import Mathlib.Logic.Relation
import SchemaCompiler.Proofs.Optionality

/-!
Contract: which aliases are finite types, and which cycles of aliases there are.

Owns:
- `SchemaIndex.InPlace`, the steps of typing that stay in the type under
  construction: into the part that a node's type depends on, and into the items
  of an array schema that a reference spells out;
- `SchemaIndex.Ends`, the schemas whose steps in place come to an end, which are
  exactly those that have a type (`typeOf_ends`, `not_ends_of_typeOf_error`);
- `SchemaNode.aliasSource?`, the schema that an alias takes its type from;
- `SchemaIndex.aliases_finite`: aliases mention names only below a sequence or a
  map, and a schema without a finite alias is reported as a cycle.

A reference to a generated type is typed by its name and not followed. So
aliases may mention each other in a circle, as long as a sequence or a map
stands between them.

Does not own: cycles through parents (`SchemaCompiler.Proofs.Cycle`).
-/

namespace SchemaCompiler

theorem error_of_map_error {ε α β : Type} {result : Except ε α} {function : α → β} {fault : ε}
    (failed : result.map function = .error fault) : result = .error fault := by
  cases result with
  | error other =>
      cases failed
      rfl
  | ok value => cases failed

/-- The items that a reference to the target spells out. -/
def TargetOutline.element? : TargetOutline → Option Schema
  | .settled _ => none
  | .sequenceOf element => some element

/-! ## Nodes -/

namespace SchemaNode

/-- Whether a target's items are spelled out does not depend on unions. -/
theorem element?_targetOutline (name : String) (allowUnion : Bool) (node : SchemaNode) :
    (node.targetOutline name allowUnion).element? = (node.targetOutline name true).element? := by
  unfold targetOutline
  cases node.enumeration? name with
  | some definition => rfl
  | none =>
      simp only
      cases node.isUnion <;> rfl

/-- A node that stands for an object has no items to spell out. -/
theorem element?_targetOutline_of_isObjectLike {name : String} {node : SchemaNode}
    (object : node.isObjectLike = true) : (node.targetOutline name true).element? = none := by
  unfold targetOutline
  cases node.enumeration? name with
  | some definition => rfl
  | none =>
      simp only
      split
      · rfl
      · split
        · rfl
        · unfold isObjectLike at object
          split at object
          · rename_i untyped
            rw [untyped]
            rfl
          · rename_i typed
            rw [typed]
            rfl
          · cases object

/-- Nor has a node without further keywords: it is a simple alias, or it stands
for an object. -/
theorem element?_targetOutline_of_isEmptySchema {name : String} {node : SchemaNode}
    (empty : node.isEmptySchema = true) : (node.targetOutline name true).element? = none := by
  by_cases object : node.isObjectLike = true
  · exact element?_targetOutline_of_isObjectLike object
  · have simple : node.isSimpleAlias = true := by
      simp only [isEmptySchema, Bool.and_eq_true, Bool.not_eq_true', Option.isNone_iff_eq_none]
        at empty
      rw [isSimpleAlias, empty.1.1, empty.1.2, empty.2]
      unfold isObjectLike at object
      split at object
      · exact absurd rfl object
      · exact absurd rfl object
      · rename_i primitive other typed
        rw [typed]
        cases primitive with
        | object => exact absurd rfl other
        | _ => rfl
    unfold targetOutline
    cases node.enumeration? name with
    | some definition => rfl
    | none =>
        simp only [simple, if_true]
        cases node.isUnion <;> rfl

theorem soleParent?_of_outline {node : SchemaNode} {member : Schema}
    (shape : node.outline = .sameAs member) : node.soleParent? = some member := by
  have noMap : ∀ base, node.mapOutline?.getD (.settled base) ≠ .sameAs member := by
    intro base same
    unfold mapOutline? at same
    split at same
    · split at same <;> cases same
    · cases same
  unfold outline at shape
  split at shape
  · rename_i parent sole
    cases shape
    exact sole
  · split at shape
    · cases shape
    · split at shape
      · cases shape
      · unfold declaredOutline at shape
        split at shape
        case h_5 => split at shape <;> cases shape
        case h_6 => exact absurd shape (noMap _)
        case h_7 => exact absurd shape (noMap _)
        all_goals cases shape

theorem soleParent?_of_isEmptySchema {node : SchemaNode} (empty : node.isEmptySchema = true) :
    node.soleParent? = none := by
  simp only [isEmptySchema, isComposite, Bool.and_eq_true, Bool.not_eq_true',
    Bool.or_eq_false_iff, Bool.not_eq_false', List.isEmpty_iff] at empty
  rw [soleParent?, empty.2.2]

/-- The schema that a node without literals takes its type from when it becomes
an alias: the values of a mapping, or the node itself when there is nothing to
flatten. -/
def aliasSource? (node : SchemaNode) : Option Schema :=
  if node.isMapAlias then
    match node.additionalProperties with
    | some (.schema value) => some value
    | _ => none
  else if node.isEmptySchema then some (.inline node)
  else none

/-- A node that becomes an alias has no items to spell out. -/
theorem element?_targetOutline_of_aliasSource {name : String} {node : SchemaNode}
    {source : Schema} (sourced : node.aliasSource? = some source) :
    (node.targetOutline name true).element? = none := by
  unfold aliasSource? at sourced
  split at sourced
  · rename_i mapped
    have object : node.isObjectLike = true := by
      simp only [isMapAlias, Bool.and_eq_true] at mapped
      exact mapped.1.1
    exact element?_targetOutline_of_isObjectLike object
  · split at sourced
    · rename_i empty
      exact element?_targetOutline_of_isEmptySchema empty
    · cases sourced

end SchemaNode

namespace SchemaIndex

open Minting Relation

variable {index : SchemaIndex} {trail : List String} {allowUnion : Bool} {schema next : Schema}

/-! ## Typing in place -/

/-- The schema inside the same type that typing goes on with. -/
def inPlace? (index : SchemaIndex) : Schema → Option Schema
  | .inline node => node.outline.part?
  | .reference target =>
      (index.lookup target.schemaName).bind fun node =>
        (node.targetOutline target.schemaName true).element?

/-- Typing goes on from one schema to another inside the same type. -/
def InPlace (index : SchemaIndex) (schema next : Schema) : Prop :=
  index.inPlace? schema = some next

/-- Typing the schema in place comes to an end. -/
def Ends (index : SchemaIndex) (schema : Schema) : Prop :=
  Acc (fun next current => index.InPlace current next) schema

/-- A reference is reached in place whose target has the canonical name `leaf`. -/
def LeadsToName (index : SchemaIndex) (schema : Schema) (leaf : String) : Prop :=
  ∃ target node, ReflTransGen index.InPlace schema (.reference target) ∧
    index.lookup target.schemaName = some node ∧ leaf = node.canonicalName target.schemaName

theorem ends_of_stop (stop : index.inPlace? schema = none) : index.Ends schema := by
  constructor
  intro other step
  rw [InPlace, stop] at step
  cases step

theorem InPlace.ends_iff (step : index.InPlace schema next) :
    index.Ends schema ↔ index.Ends next := by
  constructor
  · exact fun ends => ends.inv step
  · intro ends
    constructor
    intro other again
    rw [InPlace, step] at again
    cases again
    exact ends

/-- A schema that is reached from itself never ends. -/
theorem Ends.no_return (ends : index.Ends schema) : ¬ TransGen index.InPlace schema schema := by
  induction ends with
  | intro schema _ inductionHypothesis =>
      intro loop
      obtain ⟨next, step, back⟩ := TransGen.head'_iff.1 loop
      exact inductionHypothesis next step (TransGen.tail' back step)

theorem InPlace.leadsToName {leaf : String} (step : index.InPlace schema next)
    (leads : index.LeadsToName next leaf) : index.LeadsToName schema leaf := by
  obtain ⟨target, node, reached, found, canonical⟩ := leads
  exact ⟨target, node, reached.head step, found, canonical⟩

/-- The step from a reference may be read off with or without unions. -/
theorem inPlace?_reference {target : Reference} {node : SchemaNode}
    (found : index.lookup target.schemaName = some node) (allowUnion : Bool) :
    index.inPlace? (.reference target) =
      (node.targetOutline target.schemaName allowUnion).element? := by
  rw [inPlace?, found, SchemaNode.element?_targetOutline _ allowUnion]
  rfl

theorem inPlace_of_targetOutline {target : Reference} {node : SchemaNode} {element : Schema}
    (found : index.lookup target.schemaName = some node)
    (shape : node.targetOutline target.schemaName allowUnion = .sequenceOf element) :
    index.InPlace (.reference target) element := by
  rw [InPlace, inPlace?_reference found allowUnion, shape]
  rfl

theorem inPlace_of_outline {node : SchemaNode} {outline : Outline} {part : Schema}
    (shape : node.outline = outline) (depends : outline.part? = some part) :
    index.InPlace (.inline node) part := by
  rw [InPlace, inPlace?, shape, depends]

/-- What has a type ends, and the names in the type are those of references
reached in place. -/
theorem typeOf_ends {type : TypeExpr} (typed : index.typeOf trail allowUnion schema = .ok type) :
    index.Ends schema ∧ ∀ leaf ∈ type.namedLeaves, index.LeadsToName schema leaf := by
  have before : ∀ {first second : Schema} {leaves : List String}, index.InPlace first second →
      (index.Ends second ∧ ∀ leaf ∈ leaves, index.LeadsToName second leaf) →
        index.Ends first ∧ ∀ leaf ∈ leaves, index.LeadsToName first leaf := by
    intro first second leaves step after
    exact ⟨step.ends_iff.2 after.1, fun leaf member => step.leadsToName (after.2 leaf member)⟩
  fun_induction typeOf index trail allowUnion schema generalizing type with
  | case1 trail allowUnion target name =>
      rename_i missing
      cases typed
      have stop : index.inPlace? (.reference target) = none := by
        rw [inPlace?, missing]
        rfl
      exact ⟨ends_of_stop stop, by simp [TypeExpr.namedLeaves]⟩
  | case2 trail allowUnion target name node found settled =>
      rename_i shape
      cases typed
      have stop : index.inPlace? (.reference target) = none := by
        rw [inPlace?_reference found allowUnion, shape]
        rfl
      refine ⟨ends_of_stop stop, ?_⟩
      intro leaf member
      have canonical := SchemaNode.namedLeaves_of_targetOutline shape member
      exact ⟨target, node, .refl, found, canonical⟩
  | case3 => cases typed
  | case4 trail allowUnion target name node found element shape fresh smaller =>
      rename_i inductionHypothesis
      obtain ⟨inner, inside, rfl⟩ := exists_of_map_eq_ok typed
      have after := inductionHypothesis inside
      exact before (inPlace_of_targetOutline found shape) after
  | case5 trail allowUnion node settled shape =>
      cases typed
      have stop : index.inPlace? (.inline node) = none := by
        rw [inPlace?, shape]
        rfl
      refine ⟨ends_of_stop stop, ?_⟩
      rw [SchemaNode.namedLeaves_of_outline shape]
      intro leaf member
      cases member
  | case6 trail allowUnion node member shape _ inductionHypothesis =>
      exact before (inPlace_of_outline shape rfl) (inductionHypothesis typed)
  | case7 trail allowUnion node element shape _ inductionHypothesis =>
      obtain ⟨inner, inside, rfl⟩ := exists_of_map_eq_ok typed
      have after := inductionHypothesis inside
      exact before (inPlace_of_outline shape rfl) after
  | case8 trail allowUnion node value shape _ inductionHypothesis =>
      obtain ⟨inner, inside, rfl⟩ := exists_of_map_eq_ok typed
      have after := inductionHypothesis inside
      exact before (inPlace_of_outline shape rfl) after

/-- Every name on the trail whose target is spelled out is the name of a
reference that leads to the schema in place. -/
def Behind (index : SchemaIndex) (trail : List String) (schema : Schema) : Prop :=
  ∀ target : Reference, target.schemaName ∈ trail →
    (∃ element, index.InPlace (.reference target) element) →
      TransGen index.InPlace (.reference target) schema

theorem Behind.step (behind : index.Behind trail schema) (step : index.InPlace schema next) :
    index.Behind trail next :=
  fun target visited spelled => (behind target visited spelled).tail step

/-- The step from a reference depends on its name alone. -/
theorem InPlace.of_same_name {target other : Reference}
    (step : index.InPlace (.reference target) next)
    (same : target.schemaName = other.schemaName) : index.InPlace (.reference other) next := by
  rw [InPlace, inPlace?, same] at step
  exact step

/-- A cycle is reported only for a schema that never ends: the name met again
belongs to a reference that leads back to itself. -/
theorem not_ends_of_typeOf_error {cycle : ReferenceCycle} (behind : index.Behind trail schema)
    (failed : index.typeOf trail allowUnion schema = .error cycle) : ¬ index.Ends schema := by
  fun_induction typeOf index trail allowUnion schema with
  | case1 => cases failed
  | case2 => cases failed
  | case3 trail allowUnion target name node found element shape looped =>
      have step : index.InPlace (.reference target) element :=
        inPlace_of_targetOutline found shape
      intro ends
      exact ends.no_return (behind target looped ⟨element, step⟩)
  | case4 trail allowUnion target name node found element shape fresh _ inductionHypothesis =>
      have step : index.InPlace (.reference target) element :=
        inPlace_of_targetOutline found shape
      have after : index.Behind (trail ++ [target.schemaName]) element := by
        intro other visited spelled
        rcases List.mem_append.1 visited with earlier | last
        · exact (behind other earlier spelled).tail step
        · have same : target.schemaName = other.schemaName := (List.mem_singleton.1 last).symm
          exact .single (step.of_same_name same)
      have inside := error_of_map_error failed
      rw [step.ends_iff]
      exact inductionHypothesis after inside
  | case5 => cases failed
  | case6 trail allowUnion node member shape _ inductionHypothesis =>
      have step : index.InPlace (.inline node) member := inPlace_of_outline shape rfl
      rw [step.ends_iff]
      exact inductionHypothesis (behind.step step) failed
  | case7 trail allowUnion node element shape _ inductionHypothesis =>
      have step : index.InPlace (.inline node) element := inPlace_of_outline shape rfl
      rw [step.ends_iff]
      exact inductionHypothesis (behind.step step) (error_of_map_error failed)
  | case8 trail allowUnion node value shape _ inductionHypothesis =>
      have step : index.InPlace (.inline node) value := inPlace_of_outline shape rfl
      rw [step.ends_iff]
      exact inductionHypothesis (behind.step step) (error_of_map_error failed)

/-! ## Aliases -/

/-- Only a reference, or a node with an only parent, is typed by a bare name. -/
theorem typeOf_inline_ne_named {node : SchemaNode} {type : TypeExpr}
    (alone : node.soleParent? = none)
    (typed : index.typeOf trail allowUnion (.inline node) = .ok type) (leaf : String) :
    type ≠ .named leaf := by
  rintro rfl
  rw [typeOf_inline] at typed
  cases shape : node.outline with
  | settled settled =>
      simp only [shape] at typed
      cases typed
      have leaves := SchemaNode.namedLeaves_of_outline shape
      cases leaves
  | sameAs member =>
      rw [SchemaNode.soleParent?_of_outline shape] at alone
      cases alone
  | sequenceOf element =>
      simp only [shape] at typed
      obtain ⟨inner, -, sequence⟩ := exists_of_map_eq_ok typed
      cases sequence
  | mapOf value =>
      simp only [shape] at typed
      obtain ⟨inner, -, map⟩ := exists_of_map_eq_ok typed
      cases map

/-- The target of an alias is never another name. -/
theorem Defines.alias_ne_named {name : String} {node : SchemaNode} {definition : TypeDefinition}
    (defines : index.Defines trail name node definition) {target : TypeExpr} {distinct : Bool}
    (aliases : definition.shape = .alias target distinct) (leaf : String) :
    target ≠ .named leaf := by
  cases defines with
  | enumeration found =>
      obtain ⟨-, -, rfl⟩ := SchemaNode.enumeration?_eq_some_iff.1 found
      cases aliases
  | mapping _ aliased =>
      cases aliases
      unfold mapAlias at aliased
      split at aliased
      · split at aliased
        · obtain ⟨inner, -, map⟩ := exists_of_map_eq_ok aliased
          cases map
          exact TypeExpr.noConfusion
        · cases aliased
          exact TypeExpr.noConfusion
      · cases aliased
  | union _ built =>
      obtain ⟨fields, -, rfl⟩ := exists_of_map_eq_ok built
      cases aliases
  | transparent _ empty _ typed | distinct _ empty _ typed =>
      cases aliases
      exact typeOf_inline_ne_named (SchemaNode.soleParent?_of_isEmptySchema empty) typed leaf
  | record => cases aliases

/-- The definition of a node that becomes an alias is made from the type of its
source. -/
theorem exists_namedDefinition_eq_map (index : SchemaIndex) (trail : List String)
    {name : String} {node : SchemaNode} {source : Schema}
    (unlisted : node.enumeration? name = none) (sourced : node.aliasSource? = some source) :
    ∃ (allowUnion : Bool) (make : TypeExpr → TypeDefinition),
      (∀ type, ∃ target distinct, (make type).shape = .alias target distinct ∧
        target.namedLeaves = type.namedLeaves) ∧
      Synthesizer.namedDefinition index trail name node =
        make <$> ofExcept (index.typeOf trail allowUnion source) := by
  unfold SchemaNode.aliasSource? at sourced
  split at sourced
  · rename_i mapped
    split at sourced
    · rename_i value declared
      cases sourced
      refine ⟨true, fun type => .transparentAlias (Naming.exportedName name) (.map type),
        fun type => ⟨.map type, false, rfl, rfl⟩, ?_⟩
      unfold Synthesizer.namedDefinition
      simp only [unlisted, mapAlias, mapped, if_true, declared]
      cases index.typeOf trail true source <;> rfl
    · cases sourced
  · rename_i unmapped
    split at sourced
    · rename_i empty
      cases sourced
      have single : node.isUnion = false := by
        simp only [SchemaNode.isEmptySchema, SchemaNode.isComposite, Bool.and_eq_true,
          Bool.not_eq_true', Bool.or_eq_false_iff] at empty
        exact empty.2.1
      refine ⟨false, fun type => node.normalDescription.elim
        (.transparentAlias (Naming.exportedName name) type)
        (.distinctAlias (Naming.exportedName name) type), ?_, ?_⟩
      · intro type
        cases node.normalDescription with
        | some description => exact ⟨type, true, rfl, rfl⟩
        | none => exact ⟨type, false, rfl, rfl⟩
      · unfold Synthesizer.namedDefinition
        simp only [unlisted, mapAlias, unmapped, single, recordDefinition, empty, if_true]
        cases index.typeOf trail false (.inline node) <;> cases node.normalDescription <;> rfl
    · cases sourced

/-- The name of a schema that becomes an alias is no name that typing its source
may come back to. -/
theorem behind_of_aliasSource {name : String} {node : SchemaNode} {source : Schema}
    (found : index.lookup name = some node) (sourced : node.aliasSource? = some source) :
    index.Behind [name] source := by
  rintro target visited ⟨element, step⟩
  have same : target.schemaName = name := List.mem_singleton.1 visited
  rw [InPlace, inPlace?_reference (same ▸ found) true,
    SchemaNode.element?_targetOutline_of_aliasSource sourced] at step
  cases step

theorem buildAlone_of_aliasSource {name : String} {node : SchemaNode} {source : Schema}
    (found : index.lookup name = some node) (unlisted : node.enumeration? name = none)
    (sourced : node.aliasSource? = some source) :
    ((∃ cycle, index.buildAlone name node = .error cycle) ∧ ¬ index.Ends source) ∨
      ∃ made target distinct, index.buildAlone name node = .ok made ∧
        made.definition.shape = .alias target distinct ∧ index.Ends source ∧
          ∀ leaf ∈ target.namedLeaves, index.LeadsToName source leaf := by
  obtain ⟨allowUnion, make, aliases, computation⟩ :=
    exists_namedDefinition_eq_map index [name] unlisted sourced
  cases outcome : index.typeOf [name] allowUnion source with
  | error cycle =>
      rw [outcome, map_eq_pure_bind] at computation
      have writes := computation ▸ (writes_ofExcept (.error cycle)).bind_error
      have failed := congrArg Prod.fst (Synthesizer.build_of_writes_error (.start index) writes)
      have endless := not_ends_of_typeOf_error (behind_of_aliasSource found sourced) outcome
      exact Or.inl ⟨⟨cycle, failed⟩, endless⟩
  | ok type =>
      rw [outcome] at computation
      have writes := computation ▸ (writes_ofExcept (.ok type)).map make
      have built := congrArg Prod.fst (Synthesizer.build_of_writes_ok (.start index) writes)
      obtain ⟨target, distinct, shape, leaves⟩ := aliases type
      obtain ⟨ends, leads⟩ := typeOf_ends outcome
      exact Or.inr ⟨_, target, distinct, built, shape, ends, leaves ▸ leads⟩

/-- Aliases are finite. The target of a generated alias is never a bare name, and
every name in it stands below a sequence or a map. A schema that is to become an alias
fails, and emits nothing, exactly when typing its source in place never ends;
otherwise it is built into an alias whose names are those of references reached
in place. -/
theorem aliases_finite (index : SchemaIndex) (skip : List String) :
    (∀ definition ∈ index.synthesizeTypes skip, ∀ target distinct,
        definition.shape = .alias target distinct →
          (∀ leaf, target ≠ .named leaf) ∧
          ∀ leaf ∈ target.namedLeaves,
            ∃ part, (target = .sequence part ∨ target = .map part) ∧ leaf ∈ part.namedLeaves) ∧
      ∀ name node source, index.lookup name = some node → node.enumeration? name = none →
        node.aliasSource? = some source →
          (index.Fails name ↔ ¬ index.Ends source) ∧
          (¬ index.Ends source → index.emittedAlone name = []) ∧
          (index.Ends source → ∀ synthesizer : Synthesizer, synthesizer.index = index →
            ∃ made target distinct, (synthesizer.build name node).1 = .ok made ∧
              made.definition.shape = .alias target distinct ∧
                ∀ leaf ∈ target.namedLeaves, index.LeadsToName source leaf) := by
  constructor
  · intro definition generated target distinct aliases
    have built : ∀ leaf, target ≠ .named leaf := by
      obtain ⟨name, node, -, ⟨own, -⟩ | ⟨_, _, helper⟩⟩ := cases_of_mem_synthesizeTypes generated
      · exact own.alias_ne_named aliases
      · exact helper.defines.alias_ne_named aliases
    have plain : target.Plain := plain_of_alias generated aliases
    exact ⟨built, fun leaf => plain.exists_part_of_mem_namedLeaves (built leaf)⟩
  · intro name node source found unlisted sourced
    obtain ⟨⟨cycle, failed⟩, endless⟩ | ⟨alone, target, distinct, built, shape, ends, leads⟩ :=
      buildAlone_of_aliasSource found unlisted sourced
    · have fails : index.Fails name := fails_of_buildAlone found failed
      exact ⟨iff_of_true fails endless, fun _ => fails.emittedAlone,
        fun ends => absurd ends endless⟩
    · have succeeds : ¬ index.Fails name := by
        intro fails
        obtain ⟨cycle, failed⟩ := fails.buildAlone found
        rw [built] at failed
        cases failed
      refine ⟨iff_of_false succeeds (not_not_intro ends), fun endless => absurd ends endless, ?_⟩
      rintro - synthesizer rfl
      have shared := congrArg Prod.fst (Synthesizer.build_of_alone_ok built)
      exact ⟨_, target, distinct, shared, shape, leads⟩

/-! ## A mapping of itself, and one without an end -/

def treeReference : Reference := ⟨"#/components/schemas/Tree"⟩

/-- A mapping from text to trees. -/
def treeNode : SchemaNode :=
  { type := some .object, additionalProperties := some (.schema (.reference treeReference)) }

def treeIndex : SchemaIndex where
  schemas := ⟨[("Tree", .inline treeNode)], by decide⟩

def treeAlias : TypeDefinition := .transparentAlias "Tree" (.map (.named "Tree"))

theorem buildAlone_treeIndex : treeIndex.buildAlone "Tree" treeNode = .ok ⟨treeAlias, []⟩ := by
  have name : treeReference.schemaName = "Tree" := by decide +kernel
  have found : treeIndex.lookup "Tree" = some treeNode := rfl
  have value : treeIndex.typeOf ["Tree"] true (.reference treeReference) = .ok (.named "Tree") := by
    rw [typeOf_reference, name, found]
    rfl
  have aliased : treeIndex.mapAlias ["Tree"] treeNode = .ok (some (.map (.named "Tree"))) := by
    change (treeIndex.typeOf ["Tree"] true (.reference treeReference)).map _ = _
    rw [value]
    rfl
  unfold buildAlone Synthesizer.build Synthesizer.namedDefinition
  simp only [Synthesizer.start, aliased]
  rfl

theorem synthesizeTypes_treeIndex : treeIndex.synthesizeTypes [] = [treeAlias] :=
  synthesizeTypes_of_only rfl rfl buildAlone_treeIndex

def coilReference : Reference := ⟨"#/components/schemas/Coil"⟩

/-- Arrays of coils, beside a policy that keeps the node from being a simple
alias, and a mapping to coils. -/
def coilNode : SchemaNode :=
  { type := some .array, items := some (.reference coilReference)
    additionalProperties := some (.freeForm false) }

def vineNode : SchemaNode :=
  { type := some .object, additionalProperties := some (.schema (.reference coilReference)) }

def coilIndex : SchemaIndex where
  schemas := ⟨[("Vine", .inline vineNode), ("Coil", .inline coilNode)], by decide⟩

theorem inPlace_coilReference :
    coilIndex.InPlace (.reference coilReference) (.reference coilReference) := by
  have name : coilReference.schemaName = "Coil" := by decide +kernel
  have found : coilIndex.lookup "Coil" = some coilNode := rfl
  rw [InPlace, inPlace?, name, found]
  rfl

/-- The mapping of itself mentions itself below its map, by a reference reached
in place. The mapping to coils is a cycle. -/
theorem aliases_finite_tree :
    (∀ leaf, TypeExpr.map (.named "Tree") ≠ .named leaf) ∧
      treeIndex.LeadsToName (.reference treeReference) "Tree" ∧ coilIndex.Fails "Vine" := by
  have generated : treeAlias ∈ treeIndex.synthesizeTypes [] := by
    rw [synthesizeTypes_treeIndex]
    exact List.mem_cons_self
  have tree := aliases_finite treeIndex []
  obtain ⟨endsUnlessFails, -, ofTree⟩ := tree.2 "Tree" treeNode _ rfl rfl rfl
  have ends : treeIndex.Ends (.reference treeReference) := by
    apply Classical.not_not.1
    intro endless
    obtain ⟨cycle, failed⟩ := (endsUnlessFails.2 endless).buildAlone rfl
    rw [buildAlone_treeIndex] at failed
    cases failed
  obtain ⟨made, target, distinct, built, shape, leads⟩ := ofTree ends (.start treeIndex) rfl
  have same : Except.ok made = .ok ⟨treeAlias, []⟩ := built.symm.trans buildAlone_treeIndex
  cases same
  cases shape
  have endless : ¬ coilIndex.Ends (.reference coilReference) :=
    fun ends => ends.no_return (.single inPlace_coilReference)
  have vine := ((aliases_finite coilIndex []).2 "Vine" vineNode _ rfl rfl rfl).1
  exact ⟨(tree.1 treeAlias generated _ _ rfl).1, leads "Tree" List.mem_cons_self,
    vine.2 endless⟩

/-- A transparent alias may mention itself, and is then generated and not
reported. -/
theorem transparentAlias_mentions_itself :
    treeIndex.synthesizeTypes [] = [treeAlias] ∧
      treeAlias.shape = .alias (.map (.named "Tree")) false ∧
      treeAlias.name ∈ treeAlias.namedLeaves ∧ ¬ treeIndex.Fails "Tree" := by
  refine ⟨synthesizeTypes_treeIndex, rfl, by decide, ?_⟩
  intro fails
  obtain ⟨cycle, failed⟩ := fails.buildAlone rfl
  rw [buildAlone_treeIndex] at failed
  cases failed

end SchemaIndex

end SchemaCompiler
