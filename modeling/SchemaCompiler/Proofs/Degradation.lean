import SchemaCompiler.Proofs.Typing

/-!
Contract: what typing without unions takes away.

Owns:
- `SchemaIndex.UnionLeaf`, the reference to a union that the type of a schema
  ends in when it is typed outside of mappings;
- `SchemaIndex.Degrades`, which compares a type where unions are allowed with
  the type of the same schema where they are not;
- `Synthesizer.typeOf_degrades`: only that one leaf is lost. Cycles, all layers
  around the leaf and everything inside mappings are the same.

A type mentions at most one generated name, below the sequences and maps around
it, so a leaf is given by its schema's steps in place and the sequences on the
way. No step leads into a mapping: its values may always be unions.

Does not own: which names a type may mention (`SchemaCompiler.Proofs.Typing`).
-/

namespace SchemaCompiler

/-- The type below as many layers of sequences. -/
def TypeExpr.nested (type : TypeExpr) : Nat → TypeExpr
  | 0 => type
  | depth + 1 => .sequence (type.nested depth)

/-- Where unions are not allowed, a reference to one that is no enumeration is
any value; every other reference has the same outline. -/
theorem SchemaNode.targetOutline_cases_of_union (name : String) (node : SchemaNode) :
    (node.enumeration? name = none ∧ node.isUnion = true ∧
        node.targetOutline name true = .settled (.named (Naming.exportedName name)) ∧
        node.targetOutline name false = .settled .any) ∨
      (¬ (node.enumeration? name = none ∧ node.isUnion = true) ∧
        node.targetOutline name false = node.targetOutline name true) := by
  unfold targetOutline
  cases found : node.enumeration? name with
  | some definition => exact Or.inr ⟨by simp, rfl⟩
  | none =>
      cases union : node.isUnion with
      | true => exact Or.inl ⟨rfl, rfl, rfl, rfl⟩
      | false => exact Or.inr ⟨by simp, rfl⟩

namespace SchemaIndex

/-! ## Leaves -/

/-- Outside of mappings, the type of the schema ends below `depth` sequences in a
reference to a union that is no enumeration. One constructor for the reference
itself, and one for each step of typing that stays in place. -/
inductive UnionLeaf (index : SchemaIndex) : Schema → Nat → Reference → Prop where
  | reference {target : Reference} {node : SchemaNode}
      (found : index.lookup target.schemaName = some node)
      (unlisted : node.enumeration? target.schemaName = none) (union : node.isUnion = true) :
      UnionLeaf index (.reference target) 0 target
  | spelledOut {target leaf : Reference} {node : SchemaNode} {element : Schema} {depth : Nat}
      (found : index.lookup target.schemaName = some node)
      (shape : node.targetOutline target.schemaName true = .sequenceOf element)
      (inside : UnionLeaf index element depth leaf) :
      UnionLeaf index (.reference target) (depth + 1) leaf
  | sameAs {node : SchemaNode} {member : Schema} {depth : Nat} {leaf : Reference}
      (shape : node.outline = .sameAs member) (inside : UnionLeaf index member depth leaf) :
      UnionLeaf index (.inline node) depth leaf
  | sequenceOf {node : SchemaNode} {element : Schema} {depth : Nat} {leaf : Reference}
      (shape : node.outline = .sequenceOf element)
      (inside : UnionLeaf index element depth leaf) :
      UnionLeaf index (.inline node) (depth + 1) leaf

/-- What typing a schema comes to where unions are allowed, beside what it comes
to where they are not: the same cycle; the same layers around the name of a union
and around any value; or the same type, when it does not end in a union. -/
inductive Degrades (index : SchemaIndex) (schema : Schema) :
    Except ReferenceCycle TypeExpr → Except ReferenceCycle TypeExpr → Prop where
  | failed (cycle : ReferenceCycle) : Degrades index schema (.error cycle) (.error cycle)
  | union {depth : Nat} {leaf : Reference} (atUnion : index.UnionLeaf schema depth leaf) :
      Degrades index schema
        (.ok ((TypeExpr.named (Naming.exportedName leaf.schemaName)).nested depth))
        (.ok (TypeExpr.any.nested depth))
  | same (type : TypeExpr) (noUnion : ∀ depth leaf, ¬ index.UnionLeaf schema depth leaf) :
      Degrades index schema (.ok type) (.ok type)

variable {index : SchemaIndex}

/-! ## Steps in place -/

/-- A schema that is typed like another one ends in the same leaf. -/
theorem Degrades.inPlace {schema part : Schema} {allowed denied : Except ReferenceCycle TypeExpr}
    (degrades : index.Degrades part allowed denied)
    (leaves : ∀ depth leaf, index.UnionLeaf schema depth leaf ↔ index.UnionLeaf part depth leaf) :
    index.Degrades schema allowed denied := by
  cases degrades with
  | failed cycle => exact .failed cycle
  | union atUnion => exact .union ((leaves _ _).2 atUnion)
  | same type noUnion =>
      apply Degrades.same
      intro depth leaf atUnion
      exact noUnion depth leaf ((leaves depth leaf).1 atUnion)

/-- A sequence ends in the leaf of its items, one layer deeper. -/
theorem Degrades.sequence {schema element : Schema}
    {allowed denied : Except ReferenceCycle TypeExpr}
    (degrades : index.Degrades element allowed denied)
    (leaves : ∀ depth leaf, index.UnionLeaf schema depth leaf ↔
      ∃ below, depth = below + 1 ∧ index.UnionLeaf element below leaf) :
    index.Degrades schema (allowed.map .sequence) (denied.map .sequence) := by
  cases degrades with
  | failed cycle => exact .failed cycle
  | union atUnion => exact .union ((leaves _ _).2 ⟨_, rfl, atUnion⟩)
  | same type noUnion =>
      apply Degrades.same
      intro depth leaf atUnion
      obtain ⟨below, -, inside⟩ := (leaves depth leaf).1 atUnion
      exact noUnion below leaf inside

/-! ## The leaves of a schema -/

variable {target : Reference} {node : SchemaNode} {depth : Nat} {leaf : Reference}

/-- A reference ends in its own target, or in the items that are spelled out. -/
theorem unionLeaf_reference_iff (found : index.lookup target.schemaName = some node) :
    index.UnionLeaf (.reference target) depth leaf ↔
      (node.enumeration? target.schemaName = none ∧ node.isUnion = true ∧ depth = 0 ∧
        leaf = target) ∨
      ∃ element below, node.targetOutline target.schemaName true = .sequenceOf element ∧
        depth = below + 1 ∧ index.UnionLeaf element below leaf := by
  constructor
  · intro atUnion
    cases atUnion with
    | reference same unlisted union =>
        cases found.symm.trans same
        exact Or.inl ⟨unlisted, union, rfl, rfl⟩
    | spelledOut same shape inside =>
        cases found.symm.trans same
        exact Or.inr ⟨_, _, shape, rfl, inside⟩
  · rintro (⟨unlisted, union, rfl, rfl⟩ | ⟨element, below, shape, rfl, inside⟩)
    · exact .reference found unlisted union
    · exact .spelledOut found shape inside

/-- A reference to anything but a union ends where the items do. -/
theorem unionLeaf_reference_iff_of_other (found : index.lookup target.schemaName = some node)
    (other : ¬ (node.enumeration? target.schemaName = none ∧ node.isUnion = true)) :
    index.UnionLeaf (.reference target) depth leaf ↔
      ∃ element below, node.targetOutline target.schemaName true = .sequenceOf element ∧
        depth = below + 1 ∧ index.UnionLeaf element below leaf := by
  rw [unionLeaf_reference_iff found]
  apply or_iff_right
  rintro ⟨unlisted, union, -⟩
  exact other ⟨unlisted, union⟩

theorem not_unionLeaf_of_missing (missing : index.lookup target.schemaName = none) :
    ¬ index.UnionLeaf (.reference target) depth leaf := by
  intro atUnion
  cases atUnion with
  | reference found | spelledOut found =>
      rw [missing] at found
      cases found

theorem unionLeaf_inline_iff :
    index.UnionLeaf (.inline node) depth leaf ↔
      (∃ member, node.outline = .sameAs member ∧ index.UnionLeaf member depth leaf) ∨
        ∃ element below, node.outline = .sequenceOf element ∧ depth = below + 1 ∧
          index.UnionLeaf element below leaf := by
  constructor
  · intro atUnion
    cases atUnion with
    | sameAs shape inside => exact Or.inl ⟨_, shape, inside⟩
    | sequenceOf shape inside => exact Or.inr ⟨_, _, shape, rfl, inside⟩
  · rintro (⟨member, shape, inside⟩ | ⟨element, below, shape, rfl, inside⟩)
    · exact .sameAs shape inside
    · exact .sequenceOf shape inside

/-! ## The induction over typing -/

/-- Along any trail. -/
theorem degrades_typeOf (index : SchemaIndex) (trail : List String) (schema : Schema) :
    index.Degrades schema (index.typeOf trail true schema) (index.typeOf trail false schema) := by
  match schema with
  | .reference target =>
      rw [typeOf_reference, typeOf_reference]
      cases found : index.lookup target.schemaName with
      | none => exact .same .any fun _ _ => not_unionLeaf_of_missing found
      | some node =>
          simp only
          rcases node.targetOutline_cases_of_union target.schemaName with
            ⟨unlisted, union, allowed, denied⟩ | ⟨other, same⟩
          · rw [allowed, denied]
            exact .union (.reference found unlisted union)
          · rw [same]
            cases shape : node.targetOutline target.schemaName true with
            | settled type =>
                exact .same type fun _ _ => by
                  simp [unionLeaf_reference_iff_of_other found other, shape]
            | sequenceOf element =>
                simp only
                by_cases looped : target.schemaName ∈ trail
                · rw [if_pos looped, if_pos looped]
                  exact .failed _
                · rw [if_neg looped, if_neg looped]
                  -- The items may be of any size: the trail pays for them with a declared name.
                  have := freshCount_append_lt (mem_names_of_lookup found) looped
                  exact (degrades_typeOf index (trail ++ [target.schemaName]) element).sequence
                    fun _ _ => by simp [unionLeaf_reference_iff_of_other found other, shape]
  | .inline node =>
      rw [typeOf_inline, typeOf_inline]
      cases shape : node.outline with
      | settled type =>
          exact .same type fun _ _ => by simp [unionLeaf_inline_iff, shape]
      | sameAs member =>
          have depends : node.outline.part? = some member := by rw [shape]; rfl
          have := SchemaNode.sizeOf_outline_part_lt depends
          exact (degrades_typeOf index trail member).inPlace fun _ _ => by
            simp [unionLeaf_inline_iff, shape]
      | sequenceOf element =>
          have depends : node.outline.part? = some element := by rw [shape]; rfl
          have := SchemaNode.sizeOf_outline_part_lt depends
          exact (degrades_typeOf index trail element).sequence fun _ _ => by
            simp [unionLeaf_inline_iff, shape]
      | mapOf value =>
          -- Both runs type the values where unions are allowed: it is one result.
          have noUnion : ∀ depth leaf, ¬ index.UnionLeaf (.inline node) depth leaf := by
            simp [unionLeaf_inline_iff, shape]
          simp only
          cases index.typeOf trail true value with
          | error cycle => exact .failed cycle
          | ok type => exact .same (.map type) noUnion
termination_by (index.freshCount trail, sizeOf schema)

end SchemaIndex

/-- In any state, disallowing unions loses the one reference to a union that a
type ends in outside of mappings, and nothing else. -/
theorem Synthesizer.typeOf_degrades (synthesizer : Synthesizer) (schema : Schema) :
    synthesizer.index.Degrades schema (synthesizer.typeOf schema true)
      (synthesizer.typeOf schema false) :=
  SchemaIndex.degrades_typeOf synthesizer.index synthesizer.trail schema

end SchemaCompiler
