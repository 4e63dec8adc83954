import SchemaCompiler.Proofs.Synthesis

/-!
Contract: what building one named schema comes to.

Owns:
- `SchemaIndex.buildAlone`, the building of one schema in a run of its own;
- `Synthesizer.build_of_alone_ok` and `Synthesizer.build_of_alone_error`, which
  express any build by the one alone: the same definition or the same cycle,
  and of the helper types those with a new name;
- `SchemaIndex.AloneAccount`, what is known of a schema built alone.

Does not own: the schemas of an index one after another
(`SchemaCompiler.Proofs.Sharing`).
-/

namespace SchemaCompiler

namespace Synthesizer

variable (synthesizer : Synthesizer) {name : String} {node : SchemaNode}
  {minted : List TypeDefinition}

/-- A build gives the definition of its computation and lists the helper types
with a new name. -/
theorem build_of_writes_ok {definition : TypeDefinition}
    (writes : (namedDefinition synthesizer.index [name] name node).Writes (.ok definition) minted) :
    synthesizer.build name node =
      (.ok ⟨definition, firstOfEachName synthesizer.helpers.keys minted⟩,
        { synthesizer with helpers := synthesizer.helpers.keepAll minted, trail := [] }) := by
  have grown : (synthesizer.helpers.keepAll minted).values.drop synthesizer.helpers.size =
      firstOfEachName synthesizer.helpers.keys minted := by
    rw [HelperTable.values_keepAll]
    exact List.drop_left' (by simp [OrderedTable.values, OrderedTable.size])
  unfold build
  simp only
  rw [writes]
  simp only [grown]

/-- After a cycle the helper types are what they were: everything written before it
stands behind them. -/
theorem build_of_writes_error {cycle : ReferenceCycle}
    (writes : (namedDefinition synthesizer.index [name] name node).Writes (.error cycle) minted) :
    synthesizer.build name node = (.error cycle, { synthesizer with trail := [] }) := by
  unfold build
  simp only
  rw [writes]
  simp only [HelperTable.truncate_keepAll]

end Synthesizer

namespace SchemaIndex

/-- What a run of its own makes of the schema `name`. -/
def buildAlone (index : SchemaIndex) (name : String) (node : SchemaNode) :
    Except ReferenceCycle SynthesizedType :=
  ((Synthesizer.start index).build name node).1

/-- What is known of a schema that was built alone. -/
structure AloneAccount (index : SchemaIndex) (name : String) (node : SchemaNode)
    (made : SynthesizedType) : Prop where
  named : made.definition.name = node.canonicalName name
  below : ∀ helper ∈ made.helpers, index.MintedBelow (.ofNamed name node) helper
  closed : ∀ definition ∈ made.definition :: made.helpers, ∀ leaf ∈ definition.namedLeaves,
    index.Declares leaf ∨ leaf ∈ made.helpers.map TypeDefinition.name

variable {index : SchemaIndex} {name : String} {node : SchemaNode}

/-- A schema built alone has the definition and the helper types that its
computation writes. -/
theorem exists_writes_of_buildAlone_ok {made : SynthesizedType}
    (built : index.buildAlone name node = .ok made) :
    ∃ minted, (Synthesizer.namedDefinition index [name] name node).Writes
        (.ok made.definition) minted ∧ made.helpers = firstOfEachName [] minted ∧
      index.Account (.ofNamed name node) [] TypeDefinition.namedLeaves (.ok made.definition)
        minted := by
  have reached : index.Descends (.ofNamed name node) ⟨[name], name, .inline node⟩ := .here
  obtain ⟨result, minted, writes, account⟩ := namedDefinition_accounts reached
  cases result with
  | error cycle =>
      rw [buildAlone, Synthesizer.build_of_writes_error (.start index) writes] at built
      cases built
  | ok definition =>
      rw [buildAlone, Synthesizer.build_of_writes_ok (.start index) writes] at built
      cases built
      exact ⟨minted, writes, rfl, account⟩

theorem exists_writes_of_buildAlone_error {cycle : ReferenceCycle}
    (failed : index.buildAlone name node = .error cycle) :
    index.Loops (.ofNamed name node) cycle ∧
      ∃ minted, (Synthesizer.namedDefinition index [name] name node).Writes (.error cycle)
        minted := by
  have reached : index.Descends (.ofNamed name node) ⟨[name], name, .inline node⟩ := .here
  obtain ⟨result, minted, writes, account⟩ := namedDefinition_accounts reached
  cases result with
  | error other =>
      rw [buildAlone, Synthesizer.build_of_writes_error (.start index) writes] at failed
      cases failed
      exact ⟨account.loops cycle rfl, minted, writes⟩
  | ok definition =>
      rw [buildAlone, Synthesizer.build_of_writes_ok (.start index) writes] at failed
      cases failed

theorem account_of_buildAlone {made : SynthesizedType}
    (built : index.buildAlone name node = .ok made) : index.AloneAccount name node made := by
  obtain ⟨minted, writes, helpers, account⟩ := exists_writes_of_buildAlone_ok built
  have fromMinted : ∀ helper ∈ made.helpers, helper ∈ minted := by
    intro helper member
    rw [helpers] at member
    exact (mem_of_mem_firstOfEachName member).1
  have names : ∀ leaf, index.Covered [] minted leaf →
      index.Declares leaf ∨ leaf ∈ made.helpers.map TypeDefinition.name := by
    intro leaf covered
    rcases covered with before | declared | kept
    · cases before
    · exact Or.inl declared
    · rw [helpers]
      exact Or.inr (mem_names_firstOfEachName.2 ⟨kept, by simp⟩)
  constructor
  · exact (defines_of_namedDefinition writes.yields).name_eq
  · intro helper member
    exact account.below helper (fromMinted helper member)
  · intro definition member leaf mentioned
    rcases List.mem_cons.1 member with own | helper
    · subst own
      exact names leaf (account.mentioned _ rfl leaf mentioned)
    · exact names leaf (account.closed definition (fromMinted definition helper) leaf mentioned)

end SchemaIndex

namespace Synthesizer

variable {synthesizer : Synthesizer} {name : String} {node : SchemaNode}

/-- The helper types there are already decide only which helpers are listed. -/
theorem build_of_alone_ok {made : SynthesizedType}
    (built : synthesizer.index.buildAlone name node = .ok made) :
    synthesizer.build name node =
      (.ok ⟨made.definition, firstOfEachName synthesizer.helpers.keys made.helpers⟩,
        { synthesizer with helpers := synthesizer.helpers.keepAll made.helpers, trail := [] }) := by
  obtain ⟨minted, writes, helpers, -⟩ := SchemaIndex.exists_writes_of_buildAlone_ok built
  rw [build_of_writes_ok synthesizer writes, helpers, HelperTable.keepAll_firstOfEachName,
    firstOfEachName_firstOfEachName (by simp)]

theorem build_of_alone_error {cycle : ReferenceCycle}
    (failed : synthesizer.index.buildAlone name node = .error cycle) :
    synthesizer.build name node = (.error cycle, { synthesizer with trail := [] }) := by
  obtain ⟨-, minted, writes⟩ := SchemaIndex.exists_writes_of_buildAlone_error failed
  exact build_of_writes_error synthesizer writes

end Synthesizer

end SchemaCompiler
