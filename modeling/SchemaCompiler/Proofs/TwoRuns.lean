import SchemaCompiler.Proofs.Account
import SchemaCompiler.Proofs.Reach

/-!
Contract: two runs of the synthesis side by side.

Owns:
- `Agree` and `Minting.Agrees`, which say that two results, or two minting
  computations, are the same, except that one of them may meet a cycle when
  `exact` does not hold, with a rule for each way of composing them;
- one lemma for each function of the synthesis: it agrees with itself over two
  indexes that are alike within reach, along two trails that are one if
  `exact`, and for two parents of one exported name.

With `exact` two runs do the same on every table of helper types. Without it
the trails may differ, and a trail decides nothing but whether a cycle is met.

Does not own: what follows for the operations on a synthesizer
(`SchemaCompiler.Proofs.Locality`, `SchemaCompiler.Proofs.Classification`).
-/

namespace SchemaCompiler

/-! ## Results -/

/-- Two results are the same, or one of them is a cycle while `exact` does not
hold. -/
inductive Agree (exact : Prop) {α : Type} :
    Except ReferenceCycle α → Except ReferenceCycle α → Prop where
  | same (result : Except ReferenceCycle α) : Agree exact result result
  | left (inexact : ¬ exact) (cycle : ReferenceCycle) (other : Except ReferenceCycle α) :
      Agree exact (.error cycle) other
  | right (inexact : ¬ exact) (other : Except ReferenceCycle α) (cycle : ReferenceCycle) :
      Agree exact other (.error cycle)

namespace Agree

variable {exact : Prop} {α β : Type} {first second : Except ReferenceCycle α}

theorem map (agree : Agree exact first second) (function : α → β) :
    Agree exact (first.map function) (second.map function) := by
  cases agree with
  | same => exact .same _
  | left inexact cycle other => exact .left inexact cycle _
  | right inexact other cycle => exact .right inexact _ cycle

theorem bind {next following : α → Except ReferenceCycle β} (agree : Agree exact first second)
    (rest : ∀ value, Agree exact (next value) (following value)) :
    Agree exact (first >>= next) (second >>= following) := by
  cases agree with
  | same =>
      cases first with
      | error cycle => exact .same _
      | ok value => exact rest value
  | left inexact cycle other => exact .left inexact cycle _
  | right inexact other cycle => exact .right inexact _ cycle

theorem mapM {items : List α} {function other : α → Except ReferenceCycle β}
    (each : ∀ item ∈ items, Agree exact (function item) (other item)) :
    Agree exact (items.mapM function) (items.mapM other) := by
  induction items with
  | nil => exact .same _
  | cons head tail inductionHypothesis =>
      rw [List.mapM_cons, List.mapM_cons]
      apply (each head (by simp)).bind
      intro value
      apply (inductionHypothesis fun item member => each item (by simp [member])).bind
      intro values
      exact .same _

end Agree

/-! ## Minting computations -/

namespace Minting

variable {exact : Prop} {α β : Type} {first second : Minting α}

/-- The computation meets a cycle on this table. -/
def Cut (computation : Minting α) (helpers : HelperTable) : Prop :=
  ∃ cycle, ((computation.run).run helpers).1 = .error cycle

/-- On every table two computations do the same, or one of them meets a cycle
while `exact` does not hold. -/
def Agrees (exact : Prop) (first second : Minting α) : Prop :=
  ∀ helpers : HelperTable, (first.run).run helpers = (second.run).run helpers ∨
    ¬ exact ∧ (first.Cut helpers ∨ second.Cut helpers)

theorem agrees_refl (exact : Prop) (computation : Minting α) :
    Agrees exact computation computation :=
  fun _ => Or.inl rfl

theorem agrees_throw_left (inexact : ¬ exact) (cycle : ReferenceCycle) (computation : Minting α) :
    Agrees exact (throw cycle) computation :=
  fun _ => Or.inr ⟨inexact, Or.inl ⟨cycle, rfl⟩⟩

theorem agrees_throw_right (inexact : ¬ exact) (computation : Minting α) (cycle : ReferenceCycle) :
    Agrees exact computation (throw cycle) :=
  fun _ => Or.inr ⟨inexact, Or.inr ⟨cycle, rfl⟩⟩

theorem agrees_ofExcept {result other : Except ReferenceCycle α}
    (agree : Agree exact result other) : Agrees exact (ofExcept result) (ofExcept other) := by
  intro helpers
  cases agree with
  | same => exact Or.inl rfl
  | left inexact cycle => exact Or.inr ⟨inexact, Or.inl ⟨cycle, rfl⟩⟩
  | right inexact _ cycle => exact Or.inr ⟨inexact, Or.inr ⟨cycle, rfl⟩⟩

theorem Cut.bind {helpers : HelperTable} (cut : first.Cut helpers) (next : α → Minting β) :
    (first >>= next).Cut helpers := by
  obtain ⟨cycle, failed⟩ := cut
  refine ⟨cycle, ?_⟩
  rw [run_bind]
  cases outcome : (first.run).run helpers with
  | mk result after =>
      rw [outcome] at failed
      cases failed
      rfl

theorem Agrees.bind {next following : α → Minting β} (agrees : Agrees exact first second)
    (rest : ∀ value, Agrees exact (next value) (following value)) :
    Agrees exact (first >>= next) (second >>= following) := by
  intro helpers
  rcases agrees helpers with same | ⟨inexact, cut | cut⟩
  · unfold Cut
    rw [run_bind, run_bind, same]
    cases (second.run).run helpers with
    | mk result after =>
        cases result with
        | error cycle => exact Or.inl rfl
        | ok value => exact rest value after
  · exact Or.inr ⟨inexact, Or.inl (cut.bind next)⟩
  · exact Or.inr ⟨inexact, Or.inr (cut.bind following)⟩

/-- Exact agreement is equality. -/
theorem Agrees.eq_of_exact (agrees : Agrees exact first second) (exactly : exact) :
    first = second := by
  funext helpers
  exact (agrees helpers).resolve_right fun cut => cut.1 exactly

/-- Where neither meets a cycle, both write the same. -/
theorem Agrees.eq_of_ok {helpers after later : HelperTable} {value other : α}
    (agrees : Agrees exact first second) (left : (first.run).run helpers = (.ok value, after))
    (right : (second.run).run helpers = (.ok other, later)) : value = other ∧ after = later := by
  rcases agrees helpers with same | ⟨-, cut | cut⟩
  · rw [left, right] at same
    cases same
    exact ⟨rfl, rfl⟩
  · obtain ⟨cycle, failed⟩ := cut
    rw [left] at failed
    cases failed
  · obtain ⟨cycle, failed⟩ := cut
    rw [right] at failed
    cases failed

end Minting

/-! ## Types and unions -/

theorem SchemaNode.enumeration?_congr {name other : String}
    (names : Naming.exportedName name = Naming.exportedName other) (node : SchemaNode) :
    node.enumeration? name = node.enumeration? other := by
  have same : node.enumName name = node.enumName other := by
    unfold enumName
    rw [names]
  unfold enumeration?
  rw [same]

namespace SchemaIndex

open Minting

variable {exact : Prop} {left right : SchemaIndex}

/-- Along two trails a name is visited on both, which are one, or on neither,
unless the runs are not exact and a cycle is met along one of them. -/
theorem visited_cases {trail other : List String} (trails : exact → trail = other) (name : String) :
    (trail = other ∧ name ∈ trail) ∨ (name ∉ trail ∧ name ∉ other) ∨
      (¬ exact ∧ (name ∈ trail ∨ name ∈ other)) := by
  by_cases exactly : exact
  · have same := trails exactly
    subst same
    by_cases visited : name ∈ trail
    · exact Or.inl ⟨rfl, visited⟩
    · exact Or.inr (Or.inl ⟨visited, visited⟩)
  · by_cases visited : name ∈ trail ∨ name ∈ other
    · exact Or.inr (Or.inr ⟨exactly, visited⟩)
    · exact Or.inr (Or.inl (not_or.1 visited))

theorem typeOf_agree {trail other : List String} {schema : Schema}
    (trails : exact → trail = other) (alike : Alike left right schema) (allowUnion : Bool) :
    Agree exact (left.typeOf trail allowUnion schema) (right.typeOf other allowUnion schema) := by
  match schema, alike with
  | .reference target, alike =>
      rw [typeOf_reference left, typeOf_reference right, ← alike.lookup target .here]
      cases found : left.lookup target.schemaName with
      | none => exact .same _
      | some node =>
          simp only
          cases shape : node.targetOutline target.schemaName allowUnion with
          | settled type => exact .same _
          | sequenceOf element =>
              simp only
              rcases visited_cases trails target.schemaName with
                ⟨rfl, visited⟩ | ⟨fresh, otherFresh⟩ | ⟨inexact, visited | visited⟩
              · rw [if_pos visited, if_pos visited]
                exact .same _
              · rw [if_neg fresh, if_neg otherFresh]
                have := freshCount_append_lt (mem_names_of_lookup found) fresh
                have inside := (alike.target found).part
                  (.items (SchemaNode.items_of_targetOutline shape))
                exact (typeOf_agree (fun exactly => by rw [trails exactly]) inside
                  allowUnion).map _
              · rw [if_pos visited]
                exact .left inexact _ _
              · rw [if_pos visited]
                exact .right inexact _ _
  | .inline node, alike =>
      rw [typeOf_inline left, typeOf_inline right]
      cases shape : node.outline with
      | settled type => exact .same _
      | sameAs member =>
          have depends : node.outline.part? = some member := by rw [shape]; rfl
          have := SchemaNode.sizeOf_outline_part_lt depends
          exact typeOf_agree trails (alike.part (SchemaNode.hasPart_of_outline depends)) allowUnion
      | sequenceOf element =>
          have depends : node.outline.part? = some element := by rw [shape]; rfl
          have := SchemaNode.sizeOf_outline_part_lt depends
          exact (typeOf_agree trails (alike.part (SchemaNode.hasPart_of_outline depends))
            allowUnion).map _
      | mapOf value =>
          have depends : node.outline.part? = some value := by rw [shape]; rfl
          have := SchemaNode.sizeOf_outline_part_lt depends
          exact (typeOf_agree trails (alike.part (SchemaNode.hasPart_of_outline depends))
            true).map _
termination_by (left.freshCount trail, sizeOf schema)

variable {trail other : List String} {node : SchemaNode}

theorem mapAlias_agree (trails : exact → trail = other) (alike : Alike left right (.inline node)) :
    Agree exact (left.mapAlias trail node) (right.mapAlias other node) := by
  unfold mapAlias
  split
  · split
    · rename_i value declared
      exact (typeOf_agree trails (alike.part (.additionalProperties declared)) true).map _
    · exact .same _
  · exact .same _

theorem unionFields_agree (trails : exact → trail = other)
    (alike : Alike left right (.inline node)) :
    Agree exact (left.unionFields trail node) (right.unionFields other node) := by
  apply Agree.mapM
  intro variant listed
  have inside := alike.part (SchemaNode.hasPart_of_unionMembers (Variant.member_mem listed))
  unfold variantField
  rw [inside.nodeOf_eq, inside.isAnnotatable_eq]
  exact (typeOf_agree trails inside true).map _

theorem unionDefinition_agree (trails : exact → trail = other)
    (alike : Alike left right (.inline node)) {name further : String}
    (names : Naming.exportedName name = Naming.exportedName further) :
    Agree exact (left.unionDefinition trail name node)
      (right.unionDefinition other further node) := by
  unfold unionDefinition
  rw [names]
  exact (unionFields_agree trails alike).map _

/-! ## The induction over the synthesis -/

mutual

theorem propertyType_agrees {trail other : List String} {parent further : String}
    (property : String) {schema : Schema} (trails : exact → trail = other)
    (alike : Alike left right schema)
    (parents : Naming.exportedName parent = Naming.exportedName further) :
    Agrees exact (left.propertyType trail parent property schema)
      (right.propertyType other further property schema) := by
  match schema, alike with
  | .reference target, alike =>
      rw [propertyType, propertyType]
      exact agrees_ofExcept (typeOf_agree trails alike true)
  | .inline node, alike =>
      rw [propertyType, propertyType]
      cases sole : node.soleParentReference? with
      | some target =>
          have inside := alike.part (SchemaNode.hasPart_of_soleParentReference sole)
          exact agrees_ofExcept (typeOf_agree trails inside true)
      | none =>
          simp only
          rw [alike.helperName_eq parents property]
          cases node.enumeration? (right.helperName further property) with
          | some definition => exact agrees_refl exact _
          | none =>
              simp only
              split
              · apply (agrees_ofExcept (unionDefinition_agree trails alike rfl)).bind
                exact fun definition => agrees_refl exact _
              · split
                · apply (recordDefinition_agrees trails alike rfl).bind
                  exact fun definition => agrees_refl exact _
                · exact agrees_ofExcept (typeOf_agree trails alike true)
termination_by (left.freshCount trail, sizeOf schema, 0)

theorem recordDefinition_agrees {trail other : List String} {name further : String}
    {node : SchemaNode} (trails : exact → trail = other)
    (alike : Alike left right (.inline node))
    (names : Naming.exportedName name = Naming.exportedName further) :
    Agrees exact (left.recordDefinition trail name node)
      (right.recordDefinition other further node) := by
  rw [recordDefinition, recordDefinition, SchemaNode.enumeration?_congr names, names]
  split
  · exact agrees_refl exact _
  · apply (agrees_ofExcept (mapAlias_agree trails alike)).bind
    intro target
    split
    · exact agrees_refl exact _
    · split
      · apply (agrees_ofExcept (typeOf_agree trails alike false)).bind
        exact fun type => agrees_refl exact _
      · simp only
        rw [alike.requiredNames_eq]
        apply (contribution_agrees (right.requiredNames node) {} trails alike names).bind
        intro own
        -- The measure needs this: the parents are looked at under the same trail.
        have := sizeOf_allOf_lt node
        apply (parents_agrees (right.requiredNames node) own trails
          (fun member listed => alike.part (.allOf listed)) names).bind
        exact fun table => agrees_refl exact _
termination_by (left.freshCount trail, sizeOf node, 2)

theorem contribution_agrees {trail other : List String} {parent further : String}
    (required : List String) {source : SchemaNode} (table : FieldTable)
    (trails : exact → trail = other) (alike : Alike left right (.inline source))
    (parents : Naming.exportedName parent = Naming.exportedName further) :
    Agrees exact (left.contribution trail parent required source table)
      (right.contribution other further required source table) := by
  rw [contribution, contribution]
  split
  · have := sizeOf_properties_lt source
    exact properties_agrees required table trails
      (fun entry listed => alike.part (.property listed)) parents
  · split
    · apply (agrees_ofExcept (unionFields_agree trails alike)).bind
      exact fun fields => agrees_refl exact _
    · exact agrees_refl exact _
termination_by (left.freshCount trail, sizeOf source, 1)

theorem properties_agrees {trail other : List String} {parent further : String}
    (required : List String) {declared : List (String × Schema)} (table : FieldTable)
    (trails : exact → trail = other) (alike : ∀ entry ∈ declared, Alike left right entry.2)
    (parents : Naming.exportedName parent = Naming.exportedName further) :
    Agrees exact (left.properties trail parent required declared table)
      (right.properties other further required declared table) := by
  match declared, alike with
  | [], _ =>
      rw [properties, properties]
      exact agrees_refl exact _
  | (property, schema) :: rest, alike =>
      rw [properties, properties]
      have inside : Alike left right schema := alike (property, schema) (by simp)
      apply (propertyType_agrees property trails inside parents).bind
      intro type
      simp only
      rw [inside.withProperty_eq]
      exact properties_agrees required _ trails
        (fun entry listed => alike entry (List.mem_cons_of_mem _ listed)) parents
termination_by (left.freshCount trail, sizeOf declared, 0)

theorem parents_agrees {trail other : List String} {parent further : String}
    (required : List String) {members : List Schema} (table : FieldTable)
    (trails : exact → trail = other) (alike : ∀ member ∈ members, Alike left right member)
    (parents : Naming.exportedName parent = Naming.exportedName further) :
    Agrees exact (left.parents trail parent required members table)
      (right.parents other further required members table) := by
  match members, alike with
  | [], _ =>
      rw [SchemaIndex.parents, SchemaIndex.parents]
      exact agrees_refl exact _
  | .inline node :: rest, alike =>
      rw [SchemaIndex.parents, SchemaIndex.parents]
      apply (contribution_agrees required table trails (alike _ (by simp)) parents).bind
      intro extended
      exact parents_agrees required extended trails
        (fun member listed => alike member (List.mem_cons_of_mem _ listed)) parents
  | .reference target :: rest, alike =>
      have atTarget : Alike left right (.reference target) := alike _ (by simp)
      have others : ∀ member ∈ rest, Alike left right member :=
        fun member listed => alike member (List.mem_cons_of_mem _ listed)
      have resolves := atTarget.lookup target .here
      cases found : left.lookup target.schemaName with
      | none =>
          rw [parents_of_missing _ _ _ _ found, parents_of_missing _ _ _ _ (resolves ▸ found)]
          exact parents_agrees required table trails others parents
      | some node =>
          have otherFound := resolves ▸ found
          rcases visited_cases trails target.schemaName with
            ⟨rfl, visited⟩ | ⟨fresh, otherFresh⟩ | ⟨inexact, visited | visited⟩
          · rw [parents_of_looped _ _ _ _ found visited,
              parents_of_looped _ _ _ _ otherFound visited]
            exact agrees_refl exact _
          · rw [parents_of_fresh _ _ _ _ found fresh,
              parents_of_fresh _ _ _ _ otherFound otherFresh]
            -- The node may be of any size: the trail pays for it with a declared name.
            have := freshCount_append_lt (mem_names_of_lookup found) fresh
            apply (contribution_agrees required table (fun exactly => by rw [trails exactly])
              (atTarget.target found) parents).bind
            intro extended
            exact parents_agrees required extended trails others parents
          · rw [parents_of_looped _ _ _ _ found visited]
            exact agrees_throw_left inexact _ _
          · rw [parents_of_looped _ _ _ _ otherFound visited]
            exact agrees_throw_right inexact _ _
termination_by (left.freshCount trail, sizeOf members, 0)

end

theorem namedDefinition_agrees {name : String} (trails : exact → trail = other)
    (alike : Alike left right (.inline node)) :
    Agrees exact (Synthesizer.namedDefinition left trail name node)
      (Synthesizer.namedDefinition right other name node) := by
  unfold Synthesizer.namedDefinition
  split
  · exact agrees_refl exact _
  · apply (agrees_ofExcept (mapAlias_agree trails alike)).bind
    intro target
    split
    · exact agrees_refl exact _
    · split
      · exact agrees_ofExcept (unionDefinition_agree trails alike rfl)
      · exact recordDefinition_agrees trails alike rfl

end SchemaIndex

end SchemaCompiler
