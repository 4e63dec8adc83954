import SchemaCompiler.Proofs.Locality

/-!
Contract: inline and named schemas are classified alike.

Owns:
- `SchemaIndex.helperDefinition`, the definition that a property gets a helper
  type from, and `propertyType_cases`, which takes a property apart into making
  that definition and keeping it;
- `helperDefinition_agrees`: the two ways of classifying a node, as a property
  and as a named schema, come to the same definition unless one of them meets
  a cycle;
- what is in the table of helper types after a property: the helper types of
  the schema built under the helper's name, and then its definition.

Some nodes are told apart. A union that is also a mapping is tested for the one
first as a property and for the other first as a named schema. The name that an
enumeration takes from a companion need not be canonical, and is exported again
when the enumeration is built under it. And where a node mints a helper type
under its own helper's name, that one is kept.

Does not own: the names of helper types (`SchemaCompiler.Proofs.Naming`).
-/

namespace SchemaCompiler

/-! ## Names -/

/-- An enumeration is found again under its own name if that is canonical, or
if nothing of it is left in a canonical name. -/
theorem SchemaNode.enumeration?_of_name {name : String} {node : SchemaNode}
    {definition : TypeDefinition} (found : node.enumeration? name = some definition)
    (canonical : Naming.exportedName definition.name = definition.name ∨
      Naming.exportedName definition.name = "") :
    node.enumeration? definition.name = some definition := by
  obtain ⟨enumerates, named, same⟩ := enumeration?_eq_some_iff.1 found
  have own : definition.name = node.enumName name := by
    rw [← same]
    rfl
  rw [own] at canonical ⊢
  have again : node.enumName (node.enumName name) = node.enumName name := by
    rcases canonical with itself | nothing
    · rw [enumName, itself]
      simp only [named, if_false]
    · -- The name came from the companion, as it would again.
      have nameless : Naming.exportedName name = "" := Classical.byContradiction fun exported => by
        have fromName : node.enumName name = Naming.exportedName name := by
          simp only [enumName, exported, if_false]
        rw [fromName, Naming.exportedName_exportedName] at nothing
        exact exported nothing
      rw [enumName, nothing, enumName, nameless]
  rw [enumeration?_eq_some_iff, again]
  exact ⟨enumerates, named, same⟩

namespace SchemaIndex

open Minting

variable {index : SchemaIndex} {trail : List String} {node : SchemaNode}

/-! ## The definition of a helper type -/

/-- The definition of a node that gets a helper type called `name`: an
enumeration, a union, or whatever its record comes to. -/
def helperDefinition (index : SchemaIndex) (trail : List String) (name : String)
    (node : SchemaNode) : Minting TypeDefinition :=
  match node.enumeration? name with
  | some definition => return definition
  | none =>
      if node.isUnion then Minting.ofExcept (index.unionDefinition trail name node)
      else index.recordDefinition trail name node

/-- A property with an inline node either keeps the definition of a helper type
or mints nothing. -/
theorem propertyType_cases (index : SchemaIndex) (trail : List String) (parent property : String)
    (node : SchemaNode) :
    index.propertyType trail parent property (.inline node) = (do
        let definition ← index.helperDefinition trail (index.helperName parent property) node
        .named <$> remember definition) ∨
      ∃ result, index.propertyType trail parent property (.inline node) = ofExcept result := by
  rw [propertyType]
  unfold helperDefinition
  cases node.soleParentReference? with
  | some target => exact Or.inr ⟨_, rfl⟩
  | none =>
      simp only
      cases node.enumeration? (index.helperName parent property) with
      | some definition => exact Or.inl (by rw [pure_bind])
      | none =>
          simp only
          cases node.isUnion with
          | true => exact Or.inl rfl
          | false =>
              cases node.isComposite with
              | true => exact Or.inl rfl
              | false => exact Or.inr ⟨_, rfl⟩

/-- A node that is no union is tested twice for an enumeration and a mapping. -/
theorem namedDefinition_eq_recordDefinition (plain : node.isUnion = false)
    (trail : List String) (name : String) :
    Synthesizer.namedDefinition index trail name node =
      index.recordDefinition trail name node := by
  unfold Synthesizer.namedDefinition
  cases enumerated : node.enumeration? name with
  | some definition => rw [recordDefinition, enumerated]
  | none =>
      rw [plain, recordDefinition, enumerated]
      cases aliased : index.mapAlias trail node with
      | error cycle => rfl
      | ok target => cases target <;> rfl

theorem helperDefinition_agrees {name other : String} {further : List String}
    (enumerations : node.enumeration? name = node.enumeration? other)
    (names : node.enumeration? name = none →
      Naming.exportedName name = Naming.exportedName other)
    (apart : node.isMapAlias = true → node.isUnion = true →
      (node.enumeration? other).isSome = true) :
    Agrees False (index.helperDefinition trail name node)
      (Synthesizer.namedDefinition index further other node) := by
  -- One index and two trails: all that the trails decide is whether a cycle is met.
  have alike := Alike.refl index (.inline node)
  unfold helperDefinition
  cases enumerated : node.enumeration? name with
  | some definition =>
      rw [Synthesizer.namedDefinition, ← enumerations, enumerated]
      exact agrees_refl False _
  | none =>
      have unlisted : node.enumeration? other = none := enumerations ▸ enumerated
      simp only
      split
      · rename_i union
        have unmapped : index.mapAlias further node = .ok none := by
          unfold mapAlias
          rw [if_neg fun mapped => by simpa [unlisted] using apart mapped union]
        rw [Synthesizer.namedDefinition, unlisted]
        simp only [unmapped, union]
        exact agrees_ofExcept (unionDefinition_agree (fun exactly => exactly.elim) alike
          (names enumerated))
      · rename_i plain
        rw [namedDefinition_eq_recordDefinition (Bool.eq_false_iff.2 plain)]
        exact recordDefinition_agrees (fun exactly => exactly.elim) alike (names enumerated)

theorem defines_of_helperDefinition {name : String} {definition : TypeDefinition}
    (built : Yields (index.helperDefinition trail name node) definition) :
    index.Defines trail name node definition := by
  unfold helperDefinition at built
  split at built
  · rename_i enumeration found
    exact .enumeration (eq_of_yields_pure built ▸ found)
  · rename_i unlisted
    split at built
    · exact .union unlisted (eq_of_yields_ofExcept built)
    · exact defines_of_recordDefinition built

/-- The definition that a property gets its helper type from is the one that is
built under the name of the helper type. -/
theorem helperDefinition_agrees_own {name : String} {definition : TypeDefinition}
    {helpers after : HelperTable} (further : List String)
    (outcome : ((index.helperDefinition trail name node).run).run helpers =
      (.ok definition, after))
    (canonical : node.isEnum = true → Naming.exportedName definition.name = definition.name ∨
      Naming.exportedName definition.name = "")
    (apart : node.isMapAlias = true → node.isUnion = true →
      (node.enumeration? definition.name).isSome = true) :
    Agrees False (index.helperDefinition trail name node)
      (Synthesizer.namedDefinition index further definition.name node) := by
  have yields : Yields (index.helperDefinition trail name node) definition :=
    ⟨helpers, by rw [outcome]⟩
  cases enumerated : node.enumeration? name with
  | some enumeration =>
      have same : enumeration = definition := by
        unfold helperDefinition at yields
        rw [enumerated] at yields
        exact eq_of_yields_pure yields
      have enumerates := (SchemaNode.enumeration?_eq_some_iff.1 enumerated).1
      have again := SchemaNode.enumeration?_of_name (same ▸ enumerated) (canonical enumerates)
      exact helperDefinition_agrees (by rw [enumerated, again, same])
        (fun unlisted => by rw [enumerated] at unlisted; cases unlisted) apart
  | none =>
      have own : definition.name = Naming.exportedName name := by
        rw [(defines_of_helperDefinition yields).name_eq,
          SchemaNode.canonicalName_of_no_enumeration enumerated]
      have names : Naming.exportedName name = Naming.exportedName definition.name := by
        rw [own, Naming.exportedName_exportedName]
      exact helperDefinition_agrees (SchemaNode.enumeration?_congr names node)
        (fun _ => names) apart

end SchemaIndex

namespace Synthesizer

variable {synthesizer after : Synthesizer} {parent property helper : String} {node : SchemaNode}

/-- What is kept for a property is what building its node alone makes: the
helper types first, and then the definition. -/
theorem keepAll_of_propertyType {alone : SynthesizedType}
    (typed : synthesizer.propertyType parent property (.inline node) =
      (.ok (.named helper), after))
    (unknown : helper ∉ synthesizer.helpers.keys) (minted : helper ∈ after.helpers.keys)
    (canonical : node.isEnum = true →
      Naming.exportedName helper = helper ∨ Naming.exportedName helper = "")
    (apart : node.isMapAlias = true → node.isUnion = true →
      (node.enumeration? helper).isSome = true)
    (built : synthesizer.index.buildAlone helper node = .ok alone) :
    alone.definition.name = helper ∧
      after.helpers = synthesizer.helpers.keepAll (alone.helpers ++ [alone.definition]) := by
  unfold propertyType minting at typed
  rcases SchemaIndex.propertyType_cases synthesizer.index synthesizer.trail parent property node
    with helped | ⟨result, plain⟩
  · rw [helped, Minting.run_bind] at typed
    cases outcome : ((synthesizer.index.helperDefinition synthesizer.trail
        (synthesizer.index.helperName parent property) node).run).run synthesizer.helpers with
    | mk result grown =>
        rw [outcome] at typed
        cases result with
        | error cycle => cases typed
        | ok definition =>
            have keeping := (Minting.writes_remember definition).map TypeExpr.named grown
            simp only [keeping] at typed
            cases typed
            obtain ⟨written, writes, helpers, -⟩ :=
              SchemaIndex.exists_writes_of_buildAlone_ok built
            have agrees := SchemaIndex.helperDefinition_agrees_own [definition.name] outcome
              canonical apart
            -- Neither run meets a cycle, so they agree on the definition and the table.
            obtain ⟨rfl, rfl⟩ := agrees.eq_of_ok outcome (writes synthesizer.helpers)
            refine ⟨rfl, ?_⟩
            rw [HelperTable.keepAll_append, helpers, HelperTable.keepAll_firstOfEachName]
  · rw [plain] at typed
    cases typed
    exact absurd minted unknown

/-- Inline and named schemas are classified alike. When a property mints a
helper type that was not there before, the table grows by what building its
node under the helper's name makes, so that the helper type is the definition
of the named schema, unless the node mints one of that name itself. -/
theorem propertyType_classifies {builder later : Synthesizer} {made : SynthesizedType}
    (typed : synthesizer.propertyType parent property (.inline node) =
      (.ok (.named helper), after))
    (unknown : helper ∉ synthesizer.helpers.keys) (minted : helper ∈ after.helpers.keys)
    (canonical : node.isEnum = true →
      Naming.exportedName helper = helper ∨ Naming.exportedName helper = "")
    (apart : node.isMapAlias = true → node.isUnion = true →
      (node.enumeration? helper).isSome = true)
    (same : builder.index = synthesizer.index)
    (built : builder.build helper node = (.ok made, later)) :
    ∃ nested, synthesizer.index.buildAlone helper node = .ok ⟨made.definition, nested⟩ ∧
      after.helpers = synthesizer.helpers.keepAll (nested ++ [made.definition]) ∧
      ((∀ inner ∈ nested, inner.name ≠ helper) →
        after.helpers.find? helper = some made.definition) := by
  have alone : ∃ nested, synthesizer.index.buildAlone helper node =
      .ok ⟨made.definition, nested⟩ := by
    have definition := definition_build builder helper node
    rw [built, same] at definition
    obtain ⟨⟨own, nested⟩, outcome, rfl⟩ := exists_of_map_eq_ok definition.symm
    exact ⟨nested, outcome⟩
  obtain ⟨nested, outcome⟩ := alone
  obtain ⟨name, kept⟩ := keepAll_of_propertyType typed unknown minted canonical apart outcome
  refine ⟨nested, outcome, kept, fun distinct => ?_⟩
  have outside : nested.find? (fun inner => inner.name = helper) = none :=
    List.find?_eq_none.2 fun inner listed => by simpa using distinct inner listed
  rw [kept, HelperTable.find?_keepAll_of_not_mem unknown, List.find?_append, outside,
    Option.none_or, List.find?_cons_of_pos (by simpa using name)]

/-! ## A record with a helper type of its own -/

def modeNode : SchemaNode :=
  { enumValues := [.string "on"], enumNames := ["On"] }

def modeDefinition : TypeDefinition :=
  .enumeration "PodSpecMode" .string [⟨"On", "PodSpecModeOn", "\"on\""⟩]

/-- A node with a parent whose only property is an enumeration. -/
def specNode : SchemaNode :=
  { allOf := [.inline { properties := [("mode", .inline modeNode)] }] }

def specDefinition : TypeDefinition :=
  .record "PodSpec" none [{
    name := "mode", exportedName := "Mode", type := .optional (.named "PodSpecMode"),
    optional := true, tag := ⟨"mode", true⟩, description := none, default := none
    annotate := false }]

theorem propertyType_specNode :
    (start .empty).propertyType "Pod" "spec" (.inline specNode) =
      (.ok (.named "PodSpec"),
        ⟨.empty, HelperTable.keepAll {} [modeDefinition, specDefinition], []⟩) := by
  simp only [propertyType, SchemaIndex.propertyType, start, SchemaIndex.recordDefinition,
    specNode, SchemaIndex.contribution, SchemaIndex.properties, SchemaIndex.parents]
  rfl

theorem build_specNode :
    (start .empty).build "PodSpec" specNode =
      (.ok ⟨specDefinition, [modeDefinition]⟩,
        ⟨.empty, HelperTable.keepAll {} [modeDefinition], []⟩) := by
  simp only [build, namedDefinition, SchemaIndex.propertyType, start,
    SchemaIndex.recordDefinition, specNode, SchemaIndex.contribution, SchemaIndex.properties,
    SchemaIndex.parents]
  rfl

/-- The node is the same record as a property of a pod and as a named schema. -/
theorem propertyType_classifies_spec :
    (HelperTable.keepAll {} [modeDefinition, specDefinition]).find? "PodSpec" =
      some specDefinition := by
  obtain ⟨nested, outcome, -, found⟩ := propertyType_classifies propertyType_specNode
    (by decide) (by decide) (by decide) (by decide) rfl build_specNode
  refine found ?_
  change ((start .empty).build "PodSpec" specNode).1 = _ at outcome
  rw [build_specNode] at outcome
  cases outcome
  decide

/-! ## Nodes that are told apart -/

/-- An enumeration or a composition whose helper type is `cached` after a
property, while `built` is built under the helper's name. -/
def ToldApart (parent property helper : String) (node : SchemaNode)
    (cached built : TypeDefinition) : Prop :=
  (node.isEnum = true ∨ node.isComposite = true) ∧ node.soleParentReference? = none ∧
    ((start .empty).propertyType parent property (.inline node)).1 = .ok (.named helper) ∧
    ((start .empty).propertyType parent property (.inline node)).2.helpers.find? helper =
      some cached ∧
    (SchemaIndex.empty.buildAlone helper node).map SynthesizedType.definition = .ok built ∧
    cached ≠ built

/-- The union of nothing but text. -/
def textUnion (name : String) : TypeDefinition :=
  .record name none [.withoutNotes "string" "String" (.optional .string) true]

theorem unionDefinition_text {node : SchemaNode} (members : node.unionMembers = [textSchema])
    (undescribed : node.normalDescription = none) (trail : List String) (name : String) :
    SchemaIndex.empty.unionDefinition trail name node =
      .ok (textUnion (Naming.exportedName name)) := by
  have variants : Variant.ofNode node = [⟨"string", "String", textSchema⟩] := by
    rw [Variant.ofNode, members]
    rfl
  unfold SchemaIndex.unionDefinition SchemaIndex.unionFields
  rw [variants, List.mapM_cons, SchemaIndex.variantField, textSchema,
    SchemaIndex.typeOf_primitive, undescribed]
  rfl

/-- A union that is also a mapping. -/
def tagsNode : SchemaNode :=
  { additionalProperties := some (.freeForm true), anyOf := [textSchema] }

theorem toldApart_tagsNode :
    ToldApart "Pod" "tags" "PodTags" tagsNode (textUnion "PodTags")
      (.transparentAlias "PodTags" (.map .any)) := by
  have union : ∀ trail name, SchemaIndex.empty.unionDefinition trail name tagsNode = _ :=
    unionDefinition_text rfl rfl
  have typed : (start .empty).propertyType "Pod" "tags" (.inline tagsNode) =
      (.ok (.named "PodTags"), ⟨.empty, HelperTable.keepAll {} [textUnion "PodTags"], []⟩) := by
    simp only [propertyType, SchemaIndex.propertyType, start, union]
    rfl
  refine ⟨Or.inr rfl, rfl, by rw [typed], by rw [typed]; rfl, rfl, by decide⟩

def coilPart : SchemaNode :=
  { anyOf := [textSchema] }

/-- A node with a parent whose only property has a name without letters or digits. -/
def coilNode : SchemaNode :=
  { allOf := [.inline { properties := [("-", .inline coilPart)] }] }

def coilRecord : TypeDefinition :=
  .record "PodCoil" none
    [{ FieldDefinition.withoutNotes "-" "" (.optional (.named "PodCoil")) true with
      annotate := true }]

theorem toldApart_coilNode :
    ToldApart "Pod" "coil" "PodCoil" coilNode (textUnion "PodCoil") coilRecord := by
  have union : ∀ trail name, SchemaIndex.empty.unionDefinition trail name coilPart = _ :=
    unionDefinition_text rfl rfl
  have typed : (start .empty).propertyType "Pod" "coil" (.inline coilNode) =
      (.ok (.named "PodCoil"),
        ⟨.empty, HelperTable.keepAll {} [textUnion "PodCoil", coilRecord], []⟩) := by
    simp only [propertyType, SchemaIndex.propertyType, start, SchemaIndex.recordDefinition,
      coilNode, SchemaIndex.contribution, SchemaIndex.properties, SchemaIndex.parents, union]
    rfl
  have built : (start .empty).build "PodCoil" coilNode =
      (.ok ⟨coilRecord, [textUnion "PodCoil"]⟩,
        ⟨.empty, HelperTable.keepAll {} [textUnion "PodCoil"], []⟩) := by
    simp only [build, namedDefinition, SchemaIndex.propertyType, start,
      SchemaIndex.recordDefinition, coilNode, SchemaIndex.contribution, SchemaIndex.properties,
      SchemaIndex.parents, union]
    rfl
  refine ⟨Or.inr rfl, rfl, by rw [typed], by rw [typed]; rfl, ?_, by decide⟩
  rw [SchemaIndex.buildAlone, built]
  rfl

/-- An enumeration whose companion does not begin in upper case. -/
def hueNode : SchemaNode :=
  { enumValues := [.string "red"], enumNames := ["hueRed"] }

def hueEnumeration (name constant : String) : TypeDefinition :=
  .enumeration name .string [⟨"hueRed", constant, "\"red\""⟩]

theorem toldApart_hueNode :
    ToldApart "-" "-" "hue" hueNode (hueEnumeration "hue" "hueRed")
      (hueEnumeration "Hue" "HuehueRed") := by
  have typed : (start .empty).propertyType "-" "-" (.inline hueNode) =
      (.ok (.named "hue"),
        ⟨.empty, HelperTable.keepAll {} [hueEnumeration "hue" "hueRed"], []⟩) := by
    simp only [propertyType, SchemaIndex.propertyType]
    rfl
  exact ⟨Or.inl rfl, rfl, by rw [typed], by rw [typed]; rfl, rfl, by decide⟩

/-- The three kinds of node that are told apart. -/
theorem toldApart_by_name :
    ToldApart "Pod" "tags" "PodTags" tagsNode (textUnion "PodTags")
        (.transparentAlias "PodTags" (.map .any)) ∧
      ToldApart "Pod" "coil" "PodCoil" coilNode (textUnion "PodCoil") coilRecord ∧
      ToldApart "-" "-" "hue" hueNode (hueEnumeration "hue" "hueRed")
        (hueEnumeration "Hue" "HuehueRed") :=
  ⟨toldApart_tagsNode, toldApart_coilNode, toldApart_hueNode⟩

end Synthesizer

end SchemaCompiler
