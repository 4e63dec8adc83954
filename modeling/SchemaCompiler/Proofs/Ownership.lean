import SchemaCompiler.Proofs.Naming
import SchemaCompiler.Proofs.Sharing

/-!
Contract: who owns the names of the generated types.

Owns:
- `MintedBelow.not_reserved`, no helper type takes the exported name of a
  declared schema, at any depth of helpers inside helpers;
- `SchemaIndex.Owns`, the first schema outside `skip` that resolves and builds
  among those with one exported name;
- that every name is generated once, and that the exported name of a declared
  schema goes to its owner (`mem_synthesizeTypes_iff_owns`).

Helper types of early schemas are emitted before the definitions of later ones.
They do not get in the way because the names they choose are canonical, which
no later naming changes.

Does not own: schemas whose name exports to nothing.
-/

namespace SchemaCompiler

namespace SchemaIndex

variable {index : SchemaIndex} {name : String} {node : SchemaNode}

/-! ## Helper names -/

theorem canonical_helperName (index : SchemaIndex) {parent : String}
    (named : Naming.exportedName parent ≠ "") (property : String) :
    Naming.Canonical (index.helperName parent property) :=
  (Naming.canonical_helperName named property).firstFree index.reservedNames

/-- Below a schema with an exported name every parent has one. -/
theorem Descends.exportedName_parent (named : Naming.exportedName name ≠ "") {site : Site}
    (reached : index.Descends (.ofNamed name node) site) :
    Naming.exportedName site.parent ≠ "" := by
  induction reached with
  | here => exact named
  | part _ _ inductionHypothesis => exact inductionHypothesis
  | target _ _ _ inductionHypothesis => exact inductionHypothesis
  | helper property _ inductionHypothesis =>
      have canonical := index.canonical_helperName inductionHypothesis property
      rw [canonical.exportedName_eq]
      exact canonical.ne_empty

/-- A helper type keeps the free name that was chosen for it. -/
theorem MintedBelow.not_reserved (named : Naming.exportedName name ≠ "")
    {helper : TypeDefinition} (minted : index.MintedBelow (.ofNamed name node) helper) :
    helper.name ∉ index.reservedNames := by
  cases minted with
  | @intro trail parent node property reached defined =>
      have parentNamed : Naming.exportedName parent ≠ "" := reached.exportedName_parent named
      have canonical := index.canonical_helperName parentNamed property
      have exported := canonical.exportedName_eq
      have exportable : Naming.exportedName (index.helperName parent property) ≠ "" := by
        rw [exported]
        exact canonical.ne_empty
      have chosen : helper.name = index.helperName parent property := by
        rw [defined.defines.name_eq, SchemaNode.canonicalName_of_exportedName node exportable,
          exported]
      rw [chosen]
      exact Naming.firstFree_not_mem index.reservedNames _

theorem AloneAccount.helper_not_reserved (named : Naming.exportedName name ≠ "")
    {made : SynthesizedType} (account : index.AloneAccount name node made) :
    ∀ helper ∈ made.helpers, helper.name ∉ index.reservedNames :=
  fun helper member => (account.below helper member).not_reserved named

theorem AloneAccount.exportedName_eq (named : Naming.exportedName name ≠ "")
    {made : SynthesizedType} (account : index.AloneAccount name node made) :
    made.definition.name = Naming.exportedName name := by
  rw [account.named, SchemaNode.canonicalName_of_exportedName node named]

/-! ## Owners -/

/-- Every run over the index builds the schema to this definition. -/
def Builds (index : SchemaIndex) (name : String) (definition : TypeDefinition) : Prop :=
  ∃ node, index.lookup name = some node ∧
    ∀ synthesizer : Synthesizer, synthesizer.index = index →
      ∃ helpers, (synthesizer.build name node).1 = .ok ⟨definition, helpers⟩

/-- `definition` is what the first schema outside `skip` with its exported name
that resolves and builds is built to. -/
def Owns (index : SchemaIndex) (skip : List String) (definition : TypeDefinition) : Prop :=
  ∃ before owner after, index.names = before ++ owner :: after ∧
    owner ∉ skip ∧ Naming.exportedName owner = definition.name ∧ index.Builds owner definition ∧
    ∀ earlier ∈ before, Naming.exportedName earlier = definition.name →
      earlier ∈ skip ∨ index.lookup earlier = none ∨ index.Fails earlier

theorem builds_of_buildAlone {made : SynthesizedType} (found : index.lookup name = some node)
    (built : index.buildAlone name node = .ok made) : index.Builds name made.definition := by
  refine ⟨node, found, ?_⟩
  intro synthesizer sameIndex
  subst sameIndex
  rw [Synthesizer.build_of_alone_ok built]
  exact ⟨_, rfl⟩

/-- A definition under a reserved name that a schema emits is its own. -/
theorem builds_of_mem_emittedAlone (named : Naming.exportedName name ≠ "")
    {definition : TypeDefinition} (emitted : definition ∈ index.emittedAlone name)
    (reserved : definition.name ∈ index.reservedNames) :
    Naming.exportedName name = definition.name ∧ index.Builds name definition := by
  obtain ⟨node, made, found, built, ⟨own, -⟩ | helper⟩ := exists_of_mem_emittedAlone emitted
  · subst own
    have exported := (account_of_buildAlone built).exportedName_eq named
    exact ⟨exported.symm, builds_of_buildAlone found built⟩
  · have free := (account_of_buildAlone built).helper_not_reserved named definition helper
    exact absurd reserved free

theorem Builds.mem_emittedAlone {definition : TypeDefinition}
    (builds : index.Builds name definition) (nonempty : definition.name ≠ "") :
    ∃ helpers, index.emittedAlone name = definition :: helpers := by
  obtain ⟨node, found, everyRun⟩ := builds
  obtain ⟨helpers, built⟩ := everyRun (.start index) rfl
  refine ⟨helpers, ?_⟩
  rw [emittedAlone_of_ok found built]
  simp [SynthesizedType.emitted, nonempty]

/-- Under a reserved name a schema emits what it is built to, when it has the
name. -/
theorem find?_emittedAlone_eq_some_iff (named : Naming.exportedName name ≠ "")
    {definition : TypeDefinition} (reserved : definition.name ∈ index.reservedNames) :
    (index.emittedAlone name).find? (fun other => other.name = definition.name) =
        some definition ↔
      Naming.exportedName name = definition.name ∧ index.Builds name definition := by
  constructor
  · intro found
    exact builds_of_mem_emittedAlone named (List.mem_of_find?_eq_some found) reserved
  · rintro ⟨same, builds⟩
    obtain ⟨helpers, emits⟩ := builds.mem_emittedAlone (same ▸ named)
    rw [emits]
    exact List.find?_cons_of_pos (by simp)

/-- A schema emits nothing under a reserved name when it has another one, does
not resolve, or fails. -/
theorem find?_emittedAlone_eq_none_iff (named : Naming.exportedName name ≠ "")
    {wanted : String} (reserved : wanted ∈ index.reservedNames) :
    (index.emittedAlone name).find? (fun other => other.name = wanted) = none ↔
      (Naming.exportedName name = wanted → index.lookup name = none ∨ index.Fails name) := by
  rw [List.find?_eq_none]
  constructor
  · intro absent same
    cases found : index.lookup name with
    | none => exact Or.inl rfl
    | some node =>
        cases outcome : index.buildAlone name node with
        | error cycle => exact Or.inr (fails_of_buildAlone found outcome)
        | ok made =>
            have own := (account_of_buildAlone outcome).exportedName_eq named
            have builds := builds_of_buildAlone found outcome
            obtain ⟨helpers, emits⟩ := builds.mem_emittedAlone (own ▸ named)
            refine absurd (own.trans same) ?_
            simpa using absent made.definition (emits ▸ List.mem_cons_self)
  · intro left other emitted
    have different : other.name ≠ wanted := by
      intro same
      subst same
      obtain ⟨sameName, node, found, -⟩ := builds_of_mem_emittedAlone named emitted reserved
      rcases left sameName with missing | fails
      · rw [missing] at found
        cases found
      · rw [fails.emittedAlone] at emitted
        cases emitted
    simpa using different

/-- Under a reserved name the definition of its owner is generated, and no
other. -/
theorem mem_synthesizeTypes_iff_owns {skip : List String}
    (named : ∀ schema ∈ index.names, Naming.exportedName schema ≠ "")
    {definition : TypeDefinition} (reserved : definition.name ∈ index.reservedNames) :
    definition ∈ index.synthesizeTypes skip ↔ index.Owns skip definition := by
  rw [synthesizeTypes_eq_firstOfEachName, mem_firstOfEachName_iff, List.find?_flatMap,
    List.findSome?_eq_some_iff]
  constructor
  · rintro ⟨-, unskipped, owner, rest, split, found, absent⟩
    obtain ⟨left, right, names, leftKept, rightKept⟩ := List.filter_eq_append_iff.1 split
    obtain ⟨middle, after, tail, skipped, listed, -⟩ := List.filter_eq_cons_iff.1 rightKept
    have declared : owner ∈ index.names := by simp [names, tail]
    have own := (find?_emittedAlone_eq_some_iff (named owner declared) reserved).1 found
    refine ⟨left ++ middle, owner, after, by simp [names, tail], by simpa using listed, own.1,
      own.2, ?_⟩
    intro earlier before shared
    by_cases outside : earlier ∈ skip
    · exact Or.inl outside
    · rcases List.mem_append.1 before with inLeft | inMiddle
      · have kept : earlier ∈ unskipped := by
          rw [← leftKept]
          exact List.mem_filter.2 ⟨inLeft, by simpa using outside⟩
        have declared : earlier ∈ index.names := by simp [names, inLeft]
        have silent := find?_emittedAlone_eq_none_iff (named earlier declared) reserved
        exact Or.inr (silent.1 (absent earlier kept) shared)
      · exact absurd (by simpa using outside) (skipped earlier inMiddle)
  · rintro ⟨before, owner, after, names, listed, own, builds, first⟩
    have declared : owner ∈ index.names := by simp [names]
    refine ⟨by simp, before.filter fun name => name ∉ skip, owner,
      after.filter fun name => name ∉ skip, ?_, ?_, ?_⟩
    · rw [names, List.filter_append, List.filter_cons_of_pos (by simpa using listed)]
    · exact (find?_emittedAlone_eq_some_iff (named owner declared) reserved).2 ⟨own, builds⟩
    · intro earlier kept
      obtain ⟨inBefore, outside⟩ := List.mem_filter.1 kept
      have declared : earlier ∈ index.names := by simp [names, inBefore]
      refine (find?_emittedAlone_eq_none_iff (named earlier declared) reserved).2 fun shared => ?_
      exact (first earlier inBefore shared).resolve_left (by simpa using outside)

theorem helper_not_reserved_of_builtTypes {skip : List String}
    (named : ∀ schema ∈ index.names, Naming.exportedName schema ≠ "") {made : SynthesizedType}
    (member : made ∈ index.builtTypes skip) :
    ∀ helper ∈ made.helpers, helper.name ∉ index.reservedNames := by
  obtain ⟨name, listed, node, alone, -, built, -, helpers⟩ :=
    Synthesizer.exists_alone_of_mem_buildAll member
  have own : Naming.exportedName name ≠ "" := named name (List.mem_filter.1 listed).1
  intro helper inMade
  exact (account_of_buildAlone built).helper_not_reserved own helper (helpers helper inMade)

/-- When every schema name exports to something, each name is generated once,
the exported name of a declared schema carries the definition of its owner and
no other, and no helper type is found under it. -/
theorem synthesizeTypes_owned (index : SchemaIndex) (skip : List String)
    (named : ∀ schema ∈ index.names, Naming.exportedName schema ≠ "") :
    ((index.synthesizeTypes skip).map TypeDefinition.name).Nodup ∧
      (∀ definition : TypeDefinition, ∀ schema ∈ index.names,
        definition.name = Naming.exportedName schema →
          (definition ∈ index.synthesizeTypes skip ↔ index.Owns skip definition)) ∧
      ∀ made ∈ index.builtTypes skip, ∀ helper ∈ made.helpers, ∀ schema ∈ index.names,
        helper.name ≠ Naming.exportedName schema := by
  have reserved : ∀ schema ∈ index.names, Naming.exportedName schema ∈ index.reservedNames :=
    fun schema declared => List.mem_map_of_mem declared
  refine ⟨nodup_names_firstOfEachName _ _, ?_, ?_⟩
  · intro definition schema declared same
    exact mem_synthesizeTypes_iff_owns named (same ▸ reserved schema declared)
  · intro made member helper listed schema declared same
    have free := helper_not_reserved_of_builtTypes named member helper listed
    exact free (same ▸ reserved schema declared)

/-- An index with two schemas of one exported name. -/
def twinIndex : SchemaIndex where
  schemas := ⟨[
    ("mode", .inline
      { type := some .string, enumValues := [.string "off"], enumNames := ["Off"] }),
    ("Mode", .inline
      { type := some .string, enumValues := [.string "on"], enumNames := ["On"] })], by decide⟩

/-- With the first of two schemas left out, the second one owns their name. -/
theorem synthesizeTypes_owned_twin :
    (∀ schema ∈ twinIndex.names, Naming.exportedName schema ≠ "") ∧
      twinIndex.Owns ["mode"] (.enumeration "Mode" .string [⟨"On", "ModeOn", "\"on\""⟩]) := by
  have named : ∀ schema ∈ twinIndex.names, Naming.exportedName schema ≠ "" := by decide
  have owned := (synthesizeTypes_owned twinIndex ["mode"] named).2.1
  refine ⟨named, (owned _ "Mode" (by decide) (by decide)).1 ?_⟩
  decide

end SchemaIndex

end SchemaCompiler
