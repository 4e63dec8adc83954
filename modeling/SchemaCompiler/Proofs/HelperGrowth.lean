import SchemaCompiler.Proofs.Aliases
import SchemaCompiler.Proofs.HelperNames
import SchemaCompiler.Proofs.ResourceTyping
import SchemaCompiler.Proofs.Rollback
import SchemaCompiler.Proofs.TrailStack

/-!
Contract: what one call of the synthesis does to the state of a run.

Owns:
- `Synthesizer.Grows`: the index and the trail stay, and helper types are added
  behind those that there are, each under its own new name;
- `Synthesizer.mem_keys_of_propertyType`, by which the name that a property is
  typed by has a helper type, unless a reference decides the type;
- `OnStack.calls_restore_trail`: from every state every call ends, with the stack
  that it began with, and the state is the same or has grown.

A call that fails counts like one that succeeds: the stack is restored, and the
helper types minted before the cycle stay.

Does not own: the names of the helper types (`SchemaCompiler.Proofs.HelperNames`),
and a failed build, which cuts them back (`SchemaCompiler.Proofs.Rollback`).
-/

namespace SchemaCompiler

/-- The state of a run after helper types were added at the end, under their own
names, which are new. -/
structure Synthesizer.Grows (before after : Synthesizer) : Prop where
  index_eq : after.index = before.index
  trail_eq : after.trail = before.trail
  appended : ∃ minted : List TypeDefinition,
    after.helpers.entries = before.helpers.entries ++
        minted.map (fun definition => (definition.name, definition)) ∧
      (minted.map TypeDefinition.name).Nodup ∧
      ∀ definition ∈ minted, definition.name ∉ before.helpers.keys

namespace Synthesizer

variable {synthesizer : Synthesizer}

/-- What a computation keeps goes behind what there is. -/
theorem grows_minting {α : Type} {computation : Minting α} {result : Except ReferenceCycle α}
    {minted : List TypeDefinition} (writes : Minting.Writes computation result minted) :
    synthesizer.Grows (synthesizer.minting computation).2 := by
  rw [minting, writes]
  refine ⟨rfl, rfl, firstOfEachName synthesizer.helpers.keys minted,
    HelperTable.entries_keepAll _ _, nodup_names_firstOfEachName _ _, ?_⟩
  exact fun definition added => (mem_of_mem_firstOfEachName added).2

variable {parent property name : String}

/-- A node without a helper type and without parents is not typed by a name. -/
theorem propertyType_ne_named {node : SchemaNode}
    (unlisted : node.enumeration? (synthesizer.index.helperName parent property) = none)
    (plain : node.isComposite = false) :
    (synthesizer.propertyType parent property (.inline node)).1 ≠ .ok (.named name) := by
  obtain ⟨single, noParents⟩ := Bool.or_eq_false_iff.1 plain
  have parentless : node.allOf = [] := by simpa using noParents
  have alone : node.soleParent? = none := by
    rw [SchemaNode.soleParent?, parentless]
  have own : node.soleParentReference? = none := by
    rw [SchemaNode.soleParentReference?, alone]
  have typed : synthesizer.index.propertyType synthesizer.trail parent property (.inline node) =
      Minting.ofExcept (synthesizer.index.typeOf synthesizer.trail true (.inline node)) := by
    rw [SchemaIndex.propertyType, own]
    simp only [unlisted, single, plain]
    rfl
  rw [propertyType, typed, minting, Minting.writes_ofExcept]
  exact fun named => SchemaIndex.typeOf_inline_ne_named alone named name rfl

/-- A property whose type no reference decides is typed by a name only if there is a
helper type of that name afterwards. -/
theorem mem_keys_of_propertyType {schema : Schema} (own : schema.soleReference? = none)
    (typed : (synthesizer.propertyType parent property schema).1 = .ok (.named name)) :
    name ∈ (synthesizer.propertyType parent property schema).2.helpers.keys := by
  cases schema with
  | reference target => cases own
  | inline node =>
      by_cases composed :
          (node.enumeration? (synthesizer.index.helperName parent property)).isSome = true ∨
            node.isComposite = true
      · have helped : synthesizer.index.GetsHelper parent property node := ⟨own, composed⟩
        have result := (synthesizer.index.steady_propertyType synthesizer.trail parent property
          (.inline node) synthesizer.helpers).symm.trans typed
        obtain ⟨definition, -, named, writes⟩ := helped.writes result
        cases named
        rw [propertyType, minting, writes]
        exact HelperTable.mem_keys_keepAll.2 (Or.inr (by simp))
      · simp only [not_or, Bool.not_eq_true, Option.isSome_eq_false_iff,
          Option.isNone_iff_eq_none] at composed
        exact absurd typed (propertyType_ne_named composed.1 composed.2)

end Synthesizer

namespace OnStack

/-- From every state, with whatever names on the stack, every call ends, and with
the answer of the run. Typing a schema, a mapping or a union leaves the state as
it is. Typing a property and making a record leave the index and the stack as
they are, and add helper types at the end, under their own names, which are new.
The name of a helper type that a property is typed by is there afterwards. -/
theorem calls_restore_trail (synthesizer : Synthesizer) :
    (∀ (allowUnion : Bool) (schema : Schema), Ends (typeOf · allowUnion schema) synthesizer
      (synthesizer.typeOf schema allowUnion, synthesizer)) ∧
    (∀ node : SchemaNode, Ends (mapAlias · node) synthesizer
      (synthesizer.mapAlias node, synthesizer)) ∧
    (∀ (name : String) (node : SchemaNode), Ends (unionDefinition · name node) synthesizer
      (synthesizer.unionDefinition name node, synthesizer)) ∧
    (∀ (parent property : String) (schema : Schema),
      let ended := synthesizer.propertyType parent property schema
      Ends (propertyType · parent property schema) synthesizer ended ∧
        synthesizer.Grows ended.2 ∧
        ∀ name, schema.soleReference? = none → ended.1 = .ok (.named name) →
          name ∈ ended.2.helpers.keys) ∧
    ∀ (name : String) (node : SchemaNode),
      let ended := synthesizer.recordDefinition name node
      Ends (recordDefinition · name node) synthesizer ended ∧ synthesizer.Grows ended.2 := by
  obtain ⟨index, helpers, trail⟩ := synthesizer
  refine ⟨fun allowUnion schema => ends_of_follows fun enough =>
      typeOf_follows enough allowUnion schema,
    fun node => ends_of_follows fun enough => mapAlias_follows enough node,
    fun name node => ends_of_follows fun enough => unionDefinition_follows enough name node,
    fun parent property schema => ?_, fun name node => ?_⟩
  · exact ⟨ends_of_follows fun enough => propertyType_follows enough parent property schema,
      Synthesizer.grows_minting (index.writes_propertyType trail parent property schema),
      fun name own typed => Synthesizer.mem_keys_of_propertyType own typed⟩
  · exact ⟨ends_of_follows fun enough => recordDefinition_follows enough name node,
      Synthesizer.grows_minting (index.writes_recordDefinition trail name node)⟩

/-- A run with the knot on its stack, and one helper type more. -/
def knotRun (minted : List TypeDefinition) : Synthesizer :=
  ⟨Synthesizer.knotIndex, HelperTable.keepAll {} minted, ["Knot"]⟩

def knotGear : TypeDefinition :=
  .enumeration "KnotGear" .string [⟨"Low", "KnotGearLow", "\"low\""⟩]

theorem propertyType_gearNode :
    (knotRun []).propertyType "Knot" "gear" (.inline Synthesizer.gearNode) =
      (.ok (.named "KnotGear"), knotRun [knotGear]) := by
  simp only [Synthesizer.propertyType, SchemaIndex.propertyType, knotRun]
  rfl

/-- The record of a knot fails on itself. The stack is as before, the helper type of
its gear has come, and it is there for the gear alone as well. -/
theorem calls_restore_trail_knot :
    Ends (recordDefinition · "Knot" Synthesizer.knotNode) (knotRun [])
        (.error ⟨["Knot", "Knot"]⟩, knotRun [knotGear]) ∧
      (knotRun []).Grows (knotRun [knotGear]) ∧
      "KnotGear" ∈ (knotRun [knotGear]).helpers.keys := by
  have record : (knotRun []).recordDefinition "Knot" Synthesizer.knotNode =
      (.error ⟨["Knot", "Knot"]⟩, knotRun [knotGear]) := by
    have same : Synthesizer.namedDefinition Synthesizer.knotIndex ["Knot"] "Knot"
        Synthesizer.knotNode = _ := SchemaIndex.namedDefinition_eq_recordDefinition rfl _ _
    have ended := Synthesizer.namedDefinition_knotNode
    rw [same] at ended
    change (knotRun []).minting (Synthesizer.knotIndex.recordDefinition ["Knot"] "Knot"
      Synthesizer.knotNode) = _
    unfold Synthesizer.minting
    exact congrArg (fun outcome : _ × HelperTable =>
      (outcome.1, ({ knotRun [] with helpers := outcome.2 } : Synthesizer))) ended
  obtain ⟨-, -, -, property, records⟩ := calls_restore_trail (knotRun [])
  have ended := records "Knot" Synthesizer.knotNode
  have gear := (property "Knot" "gear" (.inline Synthesizer.gearNode)).2.2 "KnotGear" rfl
  rw [record] at ended
  rw [propertyType_gearNode] at gear
  exact ⟨ended.1, ended.2, gear rfl⟩

end OnStack

end SchemaCompiler
