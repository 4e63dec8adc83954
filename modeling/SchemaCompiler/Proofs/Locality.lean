import SchemaCompiler.Proofs.Build
import SchemaCompiler.Proofs.TwoRuns

/-!
Contract: the building of a schema from what it can reach.

Owns:
- `SchemaIndex.buildAlone_eq`: over indexes that are alike within reach of a
  node, runs of their own make the same of it;
- `Synthesizer.Grew`, the growth of the table of helper types by those that a
  build returns, and `Synthesizer.BuildsOnce`, which adds that the same build
  finds nothing left to do;
- that neither the rest of an index nor the operations before a build can be
  seen in its definition or its cycle.

Does not own: what a node can reach (`SchemaCompiler.Proofs.Reach`).
-/

namespace SchemaCompiler

theorem SchemaIndex.buildAlone_eq {left right : SchemaIndex} {node : SchemaNode}
    (alike : Alike left right (.inline node)) (name : String) :
    left.buildAlone name node = right.buildAlone name node := by
  have agrees : Minting.Agrees True (Synthesizer.namedDefinition left [name] name node)
      (Synthesizer.namedDefinition right [name] name node) :=
    namedDefinition_agrees (fun _ => rfl) alike
  unfold buildAlone Synthesizer.build Synthesizer.start
  simp only
  rw [agrees.eq_of_exact trivial]
  cases ((Synthesizer.namedDefinition right [name] name node).run).run {} with
  | mk result helpers => cases result <;> rfl

/-- Of definitions that are all in the table, none is the first of a new name. -/
theorem HelperTable.firstOfEachName_keepAll (helpers : HelperTable)
    (minted : List TypeDefinition) :
    firstOfEachName (helpers.keepAll minted).keys minted = [] := by
  rw [List.eq_nil_iff_forall_not_mem]
  intro definition member
  obtain ⟨listed, fresh⟩ := mem_of_mem_firstOfEachName member
  exact fresh (mem_keys_keepAll.2 (Or.inr (List.mem_map_of_mem listed)))

/-- Keeping helper types a second time changes nothing. -/
theorem HelperTable.keepAll_keepAll (helpers : HelperTable) (minted : List TypeDefinition) :
    (helpers.keepAll minted).keepAll minted = helpers.keepAll minted := by
  apply OrderedTable.eq_of_entries
  rw [entries_keepAll (helpers.keepAll minted), firstOfEachName_keepAll, List.map_nil,
    List.append_nil]

namespace Synthesizer

/-- Afterwards the helper types are those of before, followed by exactly those
that are returned. No returned one has a name that was there before. -/
structure Grew (before : Synthesizer) (made : SynthesizedType) (after : Synthesizer) : Prop where
  entries : after.helpers.entries =
    before.helpers.entries ++ made.helpers.map fun helper => (helper.name, helper)
  fresh : ∀ helper ∈ made.helpers, helper.name ∉ before.helpers.keys

/-- A build that succeeds adds what it returns, and the same build after it
gives the same definition, no helper types, and the same state. One that fails
adds nothing. -/
def BuildsOnce (synthesizer : Synthesizer) (name : String) (node : SchemaNode) : Prop :=
  match synthesizer.build name node with
  | (.ok made, after) =>
      Grew synthesizer made after ∧ after.build name node = (.ok ⟨made.definition, []⟩, after)
  | (.error _, after) => after.helpers = synthesizer.helpers

/-- The definition or the cycle of a build is that of a run of its own. -/
theorem definition_build (synthesizer : Synthesizer) (name : String) (node : SchemaNode) :
    (synthesizer.build name node).1.map SynthesizedType.definition =
      (synthesizer.index.buildAlone name node).map SynthesizedType.definition := by
  cases outcome : synthesizer.index.buildAlone name node with
  | ok made =>
      rw [build_of_alone_ok outcome]
      rfl
  | error cycle => rw [build_of_alone_error outcome]

theorem buildsOnce (synthesizer : Synthesizer) (name : String) (node : SchemaNode) :
    synthesizer.BuildsOnce name node := by
  unfold BuildsOnce
  cases outcome : synthesizer.index.buildAlone name node with
  | error cycle =>
      rw [build_of_alone_error outcome]
  | ok made =>
      rw [build_of_alone_ok outcome]
      refine ⟨⟨HelperTable.entries_keepAll _ _, ?_⟩, ?_⟩
      · intro helper listed
        exact (mem_of_mem_firstOfEachName listed).2
      · -- The index is the one before, so the run of its own is the same one.
        have again := @build_of_alone_ok
          ⟨synthesizer.index, synthesizer.helpers.keepAll made.helpers, []⟩ name node made outcome
        rw [again]
        simp only [HelperTable.firstOfEachName_keepAll, HelperTable.keepAll_keepAll]

/-- Two runs over indexes with the same reserved names that agree on what a node
can reach make the same definition of it or meet the same cycle, whatever was
done before in either of them, and each has it built once. -/
theorem build_local {left right : Synthesizer} {node : SchemaNode}
    (alike : SchemaIndex.Alike left.index right.index (.inline node)) (name : String) :
    (left.build name node).1.map SynthesizedType.definition =
        (right.build name node).1.map SynthesizedType.definition ∧
      left.BuildsOnce name node ∧ right.BuildsOnce name node := by
  refine ⟨?_, buildsOnce left name node, buildsOnce right name node⟩
  rw [definition_build, definition_build, SchemaIndex.buildAlone_eq alike]

/-! ## An instance -/

def crewReference : Reference :=
  ⟨"#/components/schemas/Crew"⟩

def roleNode : SchemaNode :=
  { enumValues := [.string "pilot"], enumNames := ["Pilot"] }

def crewNode : SchemaNode :=
  { properties := [("role", .inline roleNode)] }

/-- A node that can reach the schema `Crew` and nothing else. -/
def shipNode : SchemaNode :=
  { properties := [("crew", .reference crewReference)] }

/-- The schema `Crew` before one that a ship cannot reach. -/
def harbourIndex : SchemaIndex where
  schemas := ⟨[("Crew", .inline crewNode), ("Pier", .inline {})], by decide⟩

/-- The same names the other way round, the other schema being something else. -/
def marinaIndex : SchemaIndex where
  schemas := ⟨[("Pier", .reference crewReference), ("Crew", .inline crewNode)], by decide⟩

theorem schemaName_crewReference : crewReference.schemaName = "Crew" := by
  decide +kernel

private theorem reached_from_ship {schema : Schema}
    (reached : harbourIndex.Reaches (.inline shipNode) schema) :
    schema = .inline shipNode ∨ schema = .reference crewReference ∨ schema = .inline crewNode ∨
      schema = .inline roleNode := by
  induction reached with
  | here => exact Or.inl rfl
  | part reached direct inductionHypothesis =>
      rcases inductionHypothesis with same | same | same | same
      · cases same
        cases direct <;> simp_all [shipNode]
      · cases same
      · cases same
        cases direct <;> simp_all [crewNode]
      · cases same
        cases direct <;> simp_all [roleNode]
  | target reached found inductionHypothesis =>
      rcases inductionHypothesis with same | same | same | same <;> cases same
      rw [schemaName_crewReference] at found
      cases found
      exact Or.inr (Or.inr (Or.inl rfl))

theorem alike_harbour_marina : SchemaIndex.Alike harbourIndex marinaIndex (.inline shipNode) := by
  constructor
  · intro name
    simp only [SchemaIndex.reservedNames, SchemaIndex.names, harbourIndex, marinaIndex,
      OrderedTable.keys, Entries.keys, List.map_cons, List.map_nil, List.mem_cons,
      List.not_mem_nil, or_false]
    exact or_comm
  · intro target reached
    rcases reached_from_ship reached with same | same | same | same <;> cases same
    rw [schemaName_crewReference]
    rfl

/-- A ship is the same in both indexes, although the second run has a helper
type of another schema. -/
theorem build_local_ship :
    let fresh := Synthesizer.start harbourIndex
    let used : Synthesizer :=
      { index := marinaIndex
        helpers := (OrderedTable.empty).insert "PierKind" (.transparentAlias "PierKind" .any) }
    SchemaIndex.Alike harbourIndex marinaIndex (.inline shipNode) ∧
      (fresh.build "Ship" shipNode).1.map SynthesizedType.definition =
        (used.build "Ship" shipNode).1.map SynthesizedType.definition ∧
      fresh.BuildsOnce "Ship" shipNode ∧ used.BuildsOnce "Ship" shipNode :=
  ⟨alike_harbour_marina, build_local alike_harbour_marina "Ship"⟩

end Synthesizer

end SchemaCompiler
