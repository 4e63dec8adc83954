import SchemaCompiler.Proofs.Build

/-!
Contract: one run over an index against a run for each schema.

Owns:
- `SchemaIndex.Fails`, the schemas that some run fails to build;
- `SchemaIndex.emittedAlone` and `SchemaIndex.synthesizeUnshared`, the
  definitions that come of a run of its own for every schema;
- `firstOfEachName_buildAll`, the one induction over the run: the helper types
  that a shared run leaves out were emitted before, so after the removal of
  later duplicates nothing is missing;
- that the two lists are one, whatever is skipped, and that schemas which fail
  leave no trace;
- `cases_of_mem_synthesizeTypes`, where a generated definition comes from.

Does not own: what the definitions are.
-/

namespace SchemaCompiler

namespace SchemaIndex

/-- Some run over the index meets a cycle when it builds the schema. -/
def Fails (index : SchemaIndex) (name : String) : Prop :=
  ∃ synthesizer : Synthesizer, synthesizer.index = index ∧ ∃ node cycle,
    index.lookup name = some node ∧ (synthesizer.build name node).1 = .error cycle

/-- The definitions that a run of its own emits for one schema: none when it
does not resolve or fails. -/
def emittedAlone (index : SchemaIndex) (name : String) : List TypeDefinition :=
  match index.lookup name with
  | none => []
  | some node =>
      match index.buildAlone name node with
      | .ok made => made.emitted
      | .error _ => []

/-- The definitions that come of a run of its own for every schema outside
`skip`, without the later ones of each name. -/
def synthesizeUnshared (index : SchemaIndex) (skip : List String) : List TypeDefinition :=
  ((index.names.filter fun name => name ∉ skip).flatMap index.emittedAlone).eraseDupsBy
    fun left right => left.name == right.name

variable {index : SchemaIndex} {name : String} {node : SchemaNode}

theorem fails_of_buildAlone {cycle : ReferenceCycle} (found : index.lookup name = some node)
    (failed : index.buildAlone name node = .error cycle) : index.Fails name :=
  ⟨.start index, rfl, node, cycle, found, failed⟩

/-- A schema that fails in some run fails in a run of its own. -/
theorem Fails.buildAlone (fails : index.Fails name) (found : index.lookup name = some node) :
    ∃ cycle, index.buildAlone name node = .error cycle := by
  obtain ⟨synthesizer, sameIndex, other, cycle, resolved, failed⟩ := fails
  rw [found] at resolved
  cases resolved
  cases sameIndex
  cases outcome : synthesizer.index.buildAlone name node with
  | error other => exact ⟨other, rfl⟩
  | ok made =>
      rw [Synthesizer.build_of_alone_ok outcome] at failed
      cases failed

theorem emittedAlone_of_missing (missing : index.lookup name = none) :
    index.emittedAlone name = [] := by
  rw [emittedAlone, missing]

theorem emittedAlone_of_error {cycle : ReferenceCycle} (found : index.lookup name = some node)
    (failed : index.buildAlone name node = .error cycle) : index.emittedAlone name = [] := by
  simp only [emittedAlone, found, failed]

theorem emittedAlone_of_ok {made : SynthesizedType} (found : index.lookup name = some node)
    (built : index.buildAlone name node = .ok made) : index.emittedAlone name = made.emitted := by
  simp only [emittedAlone, found, built]

/-- What a schema emits is its own definition, if that has a name, or one of its
helper types. -/
theorem exists_of_mem_emittedAlone {definition : TypeDefinition}
    (emitted : definition ∈ index.emittedAlone name) :
    ∃ node made, index.lookup name = some node ∧ index.buildAlone name node = .ok made ∧
      (definition = made.definition ∧ definition.name ≠ "" ∨ definition ∈ made.helpers) := by
  unfold emittedAlone at emitted
  split at emitted
  · cases emitted
  · rename_i node found
    split at emitted
    · rename_i made built
      refine ⟨node, made, found, built, ?_⟩
      rcases List.mem_append.1 emitted with own | helper
      · split at own
        · cases own
        · rename_i nameless
          have same : definition = made.definition := List.mem_singleton.1 own
          exact Or.inl ⟨same, same ▸ nameless⟩
      · exact Or.inr helper
    · cases emitted

theorem Fails.emittedAlone (fails : index.Fails name) : index.emittedAlone name = [] := by
  cases found : index.lookup name with
  | none => exact emittedAlone_of_missing found
  | some node =>
      obtain ⟨cycle, failed⟩ := fails.buildAlone found
      exact emittedAlone_of_error found failed

end SchemaIndex

/-! ## A shared run -/

/-- Of the definitions of one schema, a shared run leaves out helper types only
whose names were seen. -/
theorem firstOfEachName_emitted {known seen : List String}
    (subset : ∀ name ∈ known, name ∈ seen) (made : SynthesizedType) :
    firstOfEachName seen
        (SynthesizedType.mk made.definition (firstOfEachName known made.helpers)).emitted =
      firstOfEachName seen made.emitted := by
  unfold SynthesizedType.emitted
  rw [firstOfEachName_append, firstOfEachName_append, firstOfEachName_firstOfEachName]
  intro name member
  exact List.mem_append_right _ (subset name member)

/-- The names seen after a schema are the same whether or not known helper types
are listed. -/
theorem mem_names_emitted {known seen : List String} (subset : ∀ name ∈ known, name ∈ seen)
    (made : SynthesizedType) (name : String) :
    name ∈ (SynthesizedType.mk made.definition
        (firstOfEachName known made.helpers)).emitted.map TypeDefinition.name ++ seen ↔
      name ∈ made.emitted.map TypeDefinition.name ++ seen := by
  simp only [SynthesizedType.emitted, List.map_append, List.mem_append,
    mem_names_firstOfEachName]
  constructor
  · rintro ((own | ⟨helper, _⟩) | before)
    · exact Or.inl (Or.inl own)
    · exact Or.inl (Or.inr helper)
    · exact Or.inr before
  · rintro ((own | helper) | before)
    · exact Or.inl (Or.inl own)
    · by_cases listed : name ∈ known
      · exact Or.inr (subset name listed)
      · exact Or.inl (Or.inr ⟨helper, listed⟩)
    · exact Or.inr before

/-- After the removal of names seen before, a shared run and runs of their own
emit the same. The helper types that are there already have been seen. -/
theorem firstOfEachName_buildAll (synthesizer : Synthesizer) (names : List String)
    {seen : List String} (known : ∀ name ∈ synthesizer.helpers.keys, name ∈ seen) :
    firstOfEachName seen ((synthesizer.buildAll names).flatMap SynthesizedType.emitted) =
      firstOfEachName seen (names.flatMap synthesizer.index.emittedAlone) := by
  induction names generalizing synthesizer seen with
  | nil => rfl
  | cons head tail inductionHypothesis =>
      rw [List.flatMap_cons]
      unfold Synthesizer.buildAll
      split
      · rename_i missing
        rw [SchemaIndex.emittedAlone_of_missing missing]
        exact inductionHypothesis synthesizer known
      · rename_i node found
        cases outcome : synthesizer.index.buildAlone head node with
        | error cycle =>
            rw [Synthesizer.build_of_alone_error outcome,
              SchemaIndex.emittedAlone_of_error found outcome]
            exact inductionHypothesis { synthesizer with trail := [] } known
        | ok made =>
            rw [Synthesizer.build_of_alone_ok outcome,
              SchemaIndex.emittedAlone_of_ok found outcome, List.flatMap_cons,
              firstOfEachName_append, firstOfEachName_append, firstOfEachName_emitted known]
            congr 1
            rw [firstOfEachName_congr (mem_names_emitted known made)]
            -- Every helper type in the grown table was known or is emitted here.
            apply inductionHypothesis
            intro name member
            rcases HelperTable.mem_keys_keepAll.1 member with old | helper
            · exact List.mem_append_right _ (known name old)
            · simp only [SynthesizedType.emitted, List.map_append, List.mem_append]
              exact Or.inl (Or.inr helper)

/-- What a shared run makes of a schema is what a run of its own makes of it,
short of some helper types. -/
theorem Synthesizer.exists_alone_of_mem_buildAll {synthesizer : Synthesizer}
    {names : List String} {made : SynthesizedType} (member : made ∈ synthesizer.buildAll names) :
    ∃ name ∈ names, ∃ node alone, synthesizer.index.lookup name = some node ∧
      synthesizer.index.buildAlone name node = .ok alone ∧
      made.definition = alone.definition ∧ ∀ helper ∈ made.helpers, helper ∈ alone.helpers := by
  induction names generalizing synthesizer with
  | nil => cases member
  | cons head tail inductionHypothesis =>
      unfold Synthesizer.buildAll at member
      split at member
      · obtain ⟨name, listed, rest⟩ := inductionHypothesis member
        exact ⟨name, List.mem_cons_of_mem _ listed, rest⟩
      · rename_i node found
        cases outcome : synthesizer.index.buildAlone head node with
        | error cycle =>
            rw [Synthesizer.build_of_alone_error outcome] at member
            obtain ⟨name, listed, rest⟩ := inductionHypothesis member
            exact ⟨name, List.mem_cons_of_mem _ listed, rest⟩
        | ok alone =>
            rw [Synthesizer.build_of_alone_ok outcome] at member
            rcases List.mem_cons.1 member with isHead | inTail
            · subst isHead
              refine ⟨head, List.mem_cons_self, node, alone, found, outcome, rfl, ?_⟩
              intro helper listed
              exact (mem_of_mem_firstOfEachName listed).1
            · obtain ⟨name, listed, rest⟩ := inductionHypothesis inTail
              exact ⟨name, List.mem_cons_of_mem _ listed, rest⟩

namespace SchemaIndex

theorem synthesizeTypes_eq_firstOfEachName (index : SchemaIndex) (skip : List String) :
    index.synthesizeTypes skip =
      firstOfEachName []
        ((index.names.filter fun name => name ∉ skip).flatMap index.emittedAlone) :=
  firstOfEachName_buildAll (.start index) _ (by
    intro name member
    cases member)

/-- An index of one schema has the types of that schema. -/
theorem synthesizeTypes_of_only {index : SchemaIndex} {name : String} {node : SchemaNode}
    {made : SynthesizedType} (only : index.names = [name])
    (found : index.lookup name = some node) (built : index.buildAlone name node = .ok made) :
    index.synthesizeTypes [] = firstOfEachName [] made.emitted := by
  have kept : ([name].filter fun name => name ∉ []) = [name] := by simp
  rw [synthesizeTypes_eq_firstOfEachName, only, kept, List.flatMap_singleton,
    emittedAlone_of_ok found built]

/-- A generated definition comes of a declared schema that builds: it is its own
definition, which has a name, or one of its helper types. -/
theorem exists_made_of_mem_synthesizeTypes {index : SchemaIndex} {skip : List String}
    {definition : TypeDefinition} (generated : definition ∈ index.synthesizeTypes skip) :
    ∃ name node made, index.lookup name = some node ∧ index.buildAlone name node = .ok made ∧
      (definition = made.definition ∧ definition.name ≠ "" ∨ definition ∈ made.helpers) := by
  rw [synthesizeTypes_eq_firstOfEachName] at generated
  obtain ⟨name, -, emitted⟩ := List.mem_flatMap.1 (mem_of_mem_firstOfEachName generated).1
  exact ⟨name, exists_of_mem_emittedAlone emitted⟩

/-- A generated definition is what a declared schema is built into, or the helper
type of a property below one. -/
theorem cases_of_mem_synthesizeTypes {index : SchemaIndex} {skip : List String}
    {definition : TypeDefinition} (generated : definition ∈ index.synthesizeTypes skip) :
    ∃ name node, index.lookup name = some node ∧
      (index.Defines [name] name node definition ∧ definition.name ≠ "" ∨
        index.MintedBelow (.ofNamed name node) definition) := by
  obtain ⟨name, node, made, found, built, ⟨own, named⟩ | helper⟩ :=
    exists_made_of_mem_synthesizeTypes generated
  · obtain ⟨minted, writes, -⟩ := exists_writes_of_buildAlone_ok built
    have defines := defines_of_namedDefinition writes.yields
    exact ⟨name, node, found, Or.inl ⟨own ▸ defines, named⟩⟩
  · have below := (account_of_buildAlone built).below definition helper
    exact ⟨name, node, found, Or.inr below⟩

/-- A generated definition is what some node is built into under some name. -/
theorem exists_defines_of_mem_synthesizeTypes {index : SchemaIndex} {skip : List String}
    {definition : TypeDefinition} (generated : definition ∈ index.synthesizeTypes skip) :
    ∃ trail name node, index.Defines trail name node definition := by
  obtain ⟨_, _, -, ⟨own, -⟩ | ⟨_, _, helper⟩⟩ := cases_of_mem_synthesizeTypes generated
  · exact ⟨_, _, _, own⟩
  · exact ⟨_, _, _, helper.defines⟩

/-- Leaving out schemas that emit nothing changes nothing. -/
theorem flatMap_emittedAlone_skip {index : SchemaIndex} (skip : List String)
    {failing : List String} (fails : ∀ name ∈ failing, index.Fails name) (names : List String) :
    (names.filter fun name => name ∉ skip ++ failing).flatMap index.emittedAlone =
      (names.filter fun name => name ∉ skip).flatMap index.emittedAlone := by
  induction names with
  | nil => rfl
  | cons head tail inductionHypothesis =>
      by_cases skipped : head ∈ skip
      · simpa [List.filter_cons, skipped] using inductionHypothesis
      · by_cases failed : head ∈ failing
        · simpa [List.filter_cons, skipped, failed, (fails head failed).emittedAlone]
            using inductionHypothesis
        · simpa [List.filter_cons, skipped, failed] using inductionHypothesis

/-- Sharing helper types between the schemas of a run cannot be seen in what is
generated, and schemas that fail leave no trace in it. -/
theorem synthesizeTypes_eq_unshared (index : SchemaIndex) (skip : List String) :
    index.synthesizeTypes skip = index.synthesizeUnshared skip ∧
      ∀ failing : List String, (∀ name ∈ failing, index.Fails name) →
        index.synthesizeTypes (skip ++ failing) = index.synthesizeTypes skip := by
  constructor
  · rw [synthesizeTypes_eq_firstOfEachName, firstOfEachName_eq_eraseDupsBy]
    rfl
  · intro failing fails
    rw [synthesizeTypes_eq_firstOfEachName, synthesizeTypes_eq_firstOfEachName,
      flatMap_emittedAlone_skip skip fails]

/-- A schema that has `Looped` as a parent. -/
def loopedNode : SchemaNode :=
  { allOf := [.reference ⟨"#/components/schemas/Looped"⟩] }

/-- An index with a schema that is its own parent and one that is not. -/
def loopedIndex : SchemaIndex where
  schemas := ⟨[("Looped", .inline loopedNode),
    ("Team", .inline { properties := [("name", .inline { type := some .string })] })], by decide⟩

theorem loopedIndex_fails : loopedIndex.Fails "Looped" := by
  have name : Reference.schemaName ⟨"#/components/schemas/Looped"⟩ = "Looped" := by
    decide +kernel
  have found : loopedIndex.lookup "Looped" = some loopedNode := rfl
  have foundTarget : loopedIndex.lookup (Reference.schemaName ⟨"#/components/schemas/Looped"⟩) =
      some loopedNode := by
    rw [name]
    exact found
  have looped : Reference.schemaName ⟨"#/components/schemas/Looped"⟩ ∈ ["Looped"] := by
    rw [name]
    decide
  have record : loopedIndex.recordDefinition ["Looped"] "Looped" loopedNode =
      throw ⟨["Looped", "Looped"]⟩ := by
    rw [recordDefinition]
    simp only [loopedNode, contribution, parents_of_looped _ _ _ _ foundTarget looped]
    rw [name]
    rfl
  have failed : loopedIndex.buildAlone "Looped" loopedNode = .error ⟨["Looped", "Looped"]⟩ := by
    unfold buildAlone Synthesizer.build Synthesizer.namedDefinition
    simp only [Synthesizer.start, record]
    rfl
  exact fails_of_buildAlone found failed

/-- Skipping the schema that is its own parent changes nothing. -/
theorem synthesizeTypes_eq_unshared_looped :
    loopedIndex.Fails "Looped" ∧
      loopedIndex.synthesizeTypes ([] ++ ["Looped"]) = loopedIndex.synthesizeTypes [] := by
  refine ⟨loopedIndex_fails, (synthesizeTypes_eq_unshared loopedIndex []).2 ["Looped"] ?_⟩
  intro name member
  rw [List.mem_singleton.1 member]
  exact loopedIndex_fails

end SchemaIndex

end SchemaCompiler
