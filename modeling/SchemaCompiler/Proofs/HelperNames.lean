import SchemaCompiler.Proofs.Classification
import SchemaCompiler.Proofs.Folding
import SchemaCompiler.Proofs.Ownership

/-!
Contract: which helper type the field of a property points at.

Owns:
- `SchemaIndex.Renumbered`, a property whose helper name is numbered until it
  meets that of another property, and `helperName_eq_iff`: there is no other way
  for two helper names of one parent to be equal;
- `SchemaIndex.HelperOf`, what the field of a property with a helper type comes
  to: the definition made from the property, the name that the field points at,
  and the definition that is found under it;
- `Synthesizer.recordDefinition_helpers`, which says so for every flattened
  record.

The first definition of a name stays. So a field points at the definition made
from its own property unless one of the same name was there before: from an
earlier run, from an earlier property, or from inside the property itself.

Does not own: helper names beside those of declared schemas
(`SchemaCompiler.Proofs.Ownership`).
-/

namespace SchemaCompiler

namespace SchemaIndex

open Minting

variable {index : SchemaIndex}

/-! ## Helper names of one parent -/

/-- The derived name of the property is that of a declared schema, the rival's name
is the property's with digits behind it, and the least number that leaves a name
free leads to the name that the rival gets. -/
structure Renumbered (index : SchemaIndex) (parent property rival : String) : Prop where
  reserved : Naming.helperName parent property ∈ index.reservedNames
  extended : Naming.ExtendsByDigits (Naming.exportedName property) (Naming.exportedName rival)
  meets : ∃ name, Naming.LeastFree index.reservedNames (Naming.helperName parent property) name ∧
    Naming.LeastFree index.reservedNames (Naming.helperName parent rival) name

theorem Renumbered.helperName_eq {parent property rival : String}
    (renumbered : index.Renumbered parent property rival) :
    index.helperName parent property = index.helperName parent rival := by
  obtain ⟨name, own, other⟩ := renumbered.meets
  exact own.eq_firstFree.symm.trans other.eq_firstFree

/-- A property that another one extends by digits can meet it only by being
numbered. -/
theorem renumbered_of_eq {parent property rival : String}
    (extended : Naming.ExtendsByDigits (Naming.exportedName property) (Naming.exportedName rival))
    (same : index.helperName parent property = index.helperName parent rival) :
    index.Renumbered parent property rival := by
  have own := Naming.leastFree_firstFree index.reservedNames (Naming.helperName parent property)
  have other := Naming.leastFree_firstFree index.reservedNames (Naming.helperName parent rival)
  refine ⟨?_, extended, _, own, ?_⟩
  · by_contra free
    -- Without a number the property's name would be the longer one with digits behind it.
    obtain ⟨digits, nonempty, -, longer⟩ := extended
    obtain ⟨more, -, numbered⟩ :=
      Naming.exists_digits_firstFree index.reservedNames (Naming.helperName parent rival)
    rw [helperName, helperName, numbered, Naming.firstFree, if_neg free] at same
    have lengths := congrArg String.length same
    simp only [Naming.helperName, longer, String.length_append] at lengths
    have positive : digits.length ≠ 0 := fun none => nonempty (String.length_eq_zero_iff.1 none)
    omega
  · change Naming.LeastFree _ _ (index.helperName parent property)
    rw [same]
    exact other

/-- Helper names of one parent are equal only through a number. -/
theorem helperName_eq_iff {parent property rival : String}
    (different : Naming.exportedName property ≠ Naming.exportedName rival) :
    index.helperName parent property = index.helperName parent rival ↔
      index.Renumbered parent property rival ∨ index.Renumbered parent rival property := by
  constructor
  · intro same
    obtain ⟨digits, only, own⟩ :=
      Naming.exists_digits_firstFree index.reservedNames (Naming.helperName parent property)
    obtain ⟨others, onlyOthers, other⟩ :=
      Naming.exists_digits_firstFree index.reservedNames (Naming.helperName parent rival)
    have letters :
        Naming.exportedName property ++ digits = Naming.exportedName rival ++ others := by
      have whole := same
      rw [helperName, helperName, own, other, Naming.helperName, Naming.helperName,
        String.append_assoc, String.append_assoc] at whole
      exact String.append_right_inj _ |>.1 whole
    rcases Naming.extendsByDigits_of_append_eq letters only onlyOthers different with
      longer | shorter
    · exact Or.inl (renumbered_of_eq longer same)
    · exact Or.inr (renumbered_of_eq shorter same.symm)
  · rintro (renumbered | renumbered)
    · exact renumbered.helperName_eq
    · exact renumbered.helperName_eq.symm

/-- A definition made under a helper name has that name, if there is anything in
it. -/
theorem canonicalName_helperName {parent property : String}
    (named : Naming.helperName parent property ≠ "") (node : SchemaNode) :
    node.canonicalName (index.helperName parent property) = index.helperName parent property := by
  have canonical : Naming.Canonical (Naming.helperName parent property) := by
    by_cases parentNamed : Naming.exportedName parent = ""
    · rw [Naming.helperName, parentNamed, String.empty_append] at named ⊢
      exact Naming.canonical_exportedName named
    · exact Naming.canonical_helperName parentNamed property
  have chosen : Naming.Canonical (index.helperName parent property) :=
    canonical.firstFree index.reservedNames
  have exported := chosen.exportedName_eq
  rw [SchemaNode.canonicalName_of_exportedName node (by rw [exported]; exact chosen.ne_empty),
    exported]

/-! ## Properties with a helper type -/

/-- The property gets a helper type: its node is an enumeration or a composition,
and not just a parent that is a reference. -/
structure GetsHelper (index : SchemaIndex) (parent property : String) (node : SchemaNode) :
    Prop where
  own : node.soleParentReference? = none
  composed : (node.enumeration? (index.helperName parent property)).isSome = true ∨
    node.isComposite = true

variable {trail : List String} {parent property : String} {node : SchemaNode}

theorem GetsHelper.propertyType_eq (helped : index.GetsHelper parent property node) :
    index.propertyType trail parent property (.inline node) = (do
      let definition ← index.helperDefinition trail (index.helperName parent property) node
      .named <$> remember definition) := by
  rw [propertyType, helped.own]
  unfold helperDefinition
  simp only
  cases enumerated : node.enumeration? (index.helperName parent property) with
  | some definition => simp only [pure_bind]
  | none =>
      have composite : node.isComposite = true :=
        helped.composed.resolve_left (by simp [enumerated])
      simp only [composite, if_true]
      cases node.isUnion <;> rfl

theorem writes_helperDefinition (index : SchemaIndex) (trail : List String) (name : String)
    (node : SchemaNode) :
    let defined := index.helperDefinition trail name node
    Writes defined defined.result defined.minted := by
  unfold helperDefinition
  cases node.enumeration? name with
  | some definition => exact (writes_pure definition).own
  | none =>
      cases node.isUnion with
      | true => exact (writes_ofExcept _).own
      | false => exact index.writes_recordDefinition trail name node

/-- A property with a helper type is typed by the name of its definition, and keeps
what is minted inside it before the definition itself. -/
theorem GetsHelper.writes (helped : index.GetsHelper parent property node) {type : TypeExpr}
    (typed : (index.propertyType trail parent property (.inline node)).result = .ok type) :
    let defined := index.helperDefinition trail (index.helperName parent property) node
    ∃ own, defined.result = .ok own ∧ type = .named own.name ∧
      Writes (index.propertyType trail parent property (.inline node)) (.ok type)
        (defined.minted ++ [own]) := by
  have inside := index.writes_helperDefinition trail (index.helperName parent property) node
  simp only at inside ⊢
  rw [helped.propertyType_eq] at typed ⊢
  revert inside typed
  generalize index.helperDefinition trail (index.helperName parent property) node = defined
  intro typed defines
  cases outcome : defined.result with
  | error cycle =>
      rw [outcome] at defines
      have failed : Writes (defined >>= fun definition => TypeExpr.named <$> remember definition)
          (.error cycle) defined.minted := defines.bind_error
      rw [Minting.result, failed] at typed
      cases typed
  | ok own =>
      rw [outcome] at defines
      have whole : Writes (defined >>= fun definition => TypeExpr.named <$> remember definition)
          (.ok (.named own.name)) (defined.minted ++ [own]) :=
        defines.bind ((writes_remember own).map TypeExpr.named)
      rw [Minting.result, whole] at typed
      cases typed
      exact ⟨own, rfl, rfl, whole⟩

/-- Under the name of its helper type, the first definition minted for a property is
one from inside it, or else its own. -/
theorem find?_mintedAt {own : TypeDefinition} {type : TypeExpr} {nested : List TypeDefinition}
    (writes : Writes (index.propertyType trail parent property (.inline node)) (.ok type)
      (nested ++ [own])) :
    ∃ first, (nested ++ [own]).find? (fun other => other.name = own.name) = some first ∧
      (index.mintedAt parent ⟨trail, .property property (.inline node)⟩).find?
        (fun other => other.name = own.name) = some first := by
  have named : ((nested ++ [own]).find? fun other => other.name = own.name).isSome :=
    List.find?_isSome.2 ⟨own, List.mem_append_right _ (List.mem_singleton_self own),
      decide_eq_true rfl⟩
  obtain ⟨first, atFirst⟩ := Option.isSome_iff_exists.1 named
  refine ⟨first, atFirst, ?_⟩
  change (index.propertyType trail parent property (.inline node)).minted.find? _ = _
  rw [writes.minted_eq, HelperTable.find?_firstOfEachName, atFirst]

/-! ## Records -/

/-- What the field of a property with a helper type comes to, after the encounters
`earlier`: the definition made from the property is `own`, the field points at its
name, and the definition found under that name is the one that was there before,
or else the first of that name to be minted, `own` being the last. -/
structure HelperOf (index : SchemaIndex) (parent : String) (before after : HelperTable)
    (earlier : List Encounter) (trail : List String) (property : String) (node : SchemaNode)
    (field : FieldDefinition) (own : TypeDefinition) : Prop where
  made : (index.helperDefinition trail (index.helperName parent property) node).result = .ok own
  named : Naming.helperName parent property ≠ "" → own.name = index.helperName parent property
  points : field.type.stripOptional = .named own.name
  found : after.find? own.name = (before.find? own.name).or
    ((earlier.flatMap (index.mintedAt parent) ++
      (index.helperDefinition trail (index.helperName parent property) node).minted ++
        [own]).find? fun definition => definition.name = own.name)

variable {name : String} {definition : TypeDefinition} {fields : List FieldDefinition}
  {earlier later : List Encounter} {schema : Schema}

/-- The first occurrence of a name, if it is a property, has its field, typed as it
is met. -/
theorem exists_field_of_property
    (built : Yields (index.recordDefinition trail name node) definition)
    (flattened : definition.shape = .record fields) {met : List String}
    (position : index.encounters trail node = earlier ++ ⟨met, .property property schema⟩ :: later)
    (first : ∀ other ∈ earlier, other.occurrence.name ≠ property) :
    ∃ field ∈ fields, field.name = property ∧ ∃ type,
      (index.propertyType met name property schema).result = .ok type ∧
        field = index.propertyField property schema type
          (!(index.requiredNames node).contains property) := by
  obtain ⟨typings, table, typed, led, rfl⟩ := exists_led_of_recordDefinition built flattened
  have listed : property ∈ table.values.map FieldDefinition.name := by
    rw [names_of_recordDefinition built flattened, List.mem_eraseDups,
      ← index.occurrences_encounters trail, position]
    simp [Occurrence.name]
  obtain ⟨field, member, named⟩ := List.mem_map.1 listed
  obtain ⟨typing, atFirst, starts⟩ := led.exists_first (fun _ _ => Starts.name_eq) member
  obtain ⟨encounter, atEncounter, same, ofType⟩ :=
    exists_find?_of_forall₂ (forall₂_encounters typed)
      (fun encounter typing both => by rw [← both.1]) atFirst
  have leading : encounter = ⟨met, .property property schema⟩ := by
    rw [position, named, List.find?_append, List.find?_eq_none.2 fun other inEarlier =>
      by simpa using first other inEarlier, Option.none_or,
      List.find?_cons_of_pos (by simp [Occurrence.name])] at atEncounter
    exact (Option.some.inj atEncounter).symm
  subst leading
  refine ⟨field, member, named, typing.2, ofType, ?_⟩
  cases starts with
  | alternative => cases same
  | property plain =>
      cases same
      rfl

end SchemaIndex

namespace Synthesizer

open SchemaIndex

/-- A flattened record leaves the helper types of its occurrences in turn behind
those that were there before. -/
theorem helpers_of_recordDefinition {synthesizer after : Synthesizer} {name : String}
    {node : SchemaNode} {definition : TypeDefinition} {fields : List FieldDefinition}
    (built : synthesizer.recordDefinition name node = (.ok definition, after))
    (flattened : definition.shape = .record fields) :
    after.helpers = synthesizer.helpers.keepAll
      ((synthesizer.index.encounters synthesizer.trail node).flatMap
        (synthesizer.index.mintedAt name)) := by
  have writes := writes_of_flattened (yields_of_recordDefinition (congrArg Prod.fst built))
    flattened synthesizer.helpers
  have left := congrArg (fun outcome => outcome.2.helpers) built
  simp only [recordDefinition, minting, writes] at left
  exact left.symm

/-- Two properties of one parent with different exported names get one helper name
exactly when one of them is renumbered to that of the other. In a flattened record
the first property of a name, if it gets a helper type, has a field that points at
the definition made from it, in the sense of `HelperOf`. -/
theorem recordDefinition_helpers (synthesizer : Synthesizer) (name : String) :
    (∀ property rival, Naming.exportedName property ≠ Naming.exportedName rival →
      (synthesizer.index.helperName name property = synthesizer.index.helperName name rival ↔
        synthesizer.index.Renumbered name property rival ∨
          synthesizer.index.Renumbered name rival property)) ∧
    ∀ node definition after fields,
      synthesizer.recordDefinition name node = (.ok definition, after) →
      definition.shape = .record fields →
      ∀ earlier trail property inner later,
        synthesizer.index.encounters synthesizer.trail node =
          earlier ++ ⟨trail, .property property (.inline inner)⟩ :: later →
        (∀ other ∈ earlier, other.occurrence.name ≠ property) →
        synthesizer.index.GetsHelper name property inner →
        ∃ field ∈ fields, field.name = property ∧ ∃ own,
          synthesizer.index.HelperOf name synthesizer.helpers after.helpers earlier trail property
            inner field own := by
  refine ⟨fun _ _ => helperName_eq_iff, ?_⟩
  intro node definition after fields built flattened earlier trail property inner later position
    first helped
  have yields := yields_of_recordDefinition (congrArg Prod.fst built)
  obtain ⟨field, member, named, type, typed, fieldEq⟩ :=
    exists_field_of_property yields flattened position first
  obtain ⟨own, made, rfl, writes⟩ := helped.writes typed
  have yieldsOwn := (writes_helperDefinition _ _ _ _).steady.yields_iff.2 made
  have ownName : own.name = inner.canonicalName (synthesizer.index.helperName name property) :=
    (defines_of_helperDefinition yieldsOwn).name_eq
  refine ⟨field, member, named, own, made, ?_, ?_, ?_⟩
  · intro derived
    rw [ownName, canonicalName_helperName derived]
  · rw [fieldEq, propertyField]
    split <;> rfl
  · -- The property itself mints something of the name, so no later definition is found.
    obtain ⟨leading, written, atProperty⟩ := find?_mintedAt writes
    rw [helpers_of_recordDefinition built flattened, HelperTable.find?_keepAll, position,
      List.flatMap_append, List.flatMap_cons, List.find?_append, List.find?_append, atProperty,
      List.append_assoc, List.find?_append, written, Option.some_or]

/-! ## A helper name that is numbered onto another -/

/-- An index with a schema that takes the name of a helper type. -/
def bootIndex : SchemaIndex where
  schemas := ⟨[("SpecBoot", .inline { type := some .boolean })], by decide⟩

def biosNode : SchemaNode :=
  { enumValues := [.string "bios"], enumNames := ["Bios"] }

def uefiNode : SchemaNode :=
  { enumValues := [.string "uefi"], enumNames := ["Uefi"] }

def bootNode : SchemaNode :=
  { properties := [("boot", .inline biosNode), ("boot2", .inline uefiNode)] }

def biosDefinition : TypeDefinition :=
  .enumeration "SpecBoot2" .string [⟨"Bios", "SpecBoot2Bios", "\"bios\""⟩]

def uefiDefinition : TypeDefinition :=
  .enumeration "SpecBoot2" .string [⟨"Uefi", "SpecBoot2Uefi", "\"uefi\""⟩]

def bootFields : List FieldDefinition :=
  [.withoutNotes "boot" "Boot" (.optional (.named "SpecBoot2")) true,
    .withoutNotes "boot2" "Boot2" (.optional (.named "SpecBoot2")) true]

def bootHelpers : HelperTable := HelperTable.keepAll {} [biosDefinition]

theorem recordDefinition_bootNode :
    (start bootIndex).recordDefinition "Spec" bootNode =
      (.ok (.record "Spec" none bootFields), ⟨bootIndex, bootHelpers, []⟩) := by
  simp only [recordDefinition, start, SchemaIndex.recordDefinition, bootNode, contribution,
    properties, parents, SchemaIndex.propertyType]
  rfl

/-- The field of the second property points at the definition made from the first
one. -/
theorem recordDefinition_helpers_boot :
    (bootIndex.Renumbered "Spec" "boot" "boot2" ∨ bootIndex.Renumbered "Spec" "boot2" "boot") ∧
      ∃ field ∈ bootFields, field.name = "boot2" ∧
        field.type.stripOptional = .named uefiDefinition.name ∧
        bootHelpers.find? uefiDefinition.name = some biosDefinition := by
  obtain ⟨names, fields⟩ := recordDefinition_helpers (start bootIndex) "Spec"
  refine ⟨(names "boot" "boot2" (by decide)).1 (by decide), ?_⟩
  obtain ⟨field, member, named, own, helper⟩ := fields _ _ _ _ recordDefinition_bootNode rfl
    [⟨[], .property "boot" (.inline biosNode)⟩] [] "boot2" uefiNode [] rfl
    (by decide) ⟨rfl, Or.inl (by decide)⟩
  have made : Except.ok uefiDefinition = Except.ok own := helper.made
  cases made
  exact ⟨field, member, named, helper.points, helper.found.trans (by
    simp only [List.flatMap_cons, mintedAt, SchemaIndex.propertyType]
    rfl)⟩

/-- Two properties of one parent may share a helper name. -/
theorem helperName_shared :
    ¬ ∀ (index : SchemaIndex) (parent property rival : String),
      Naming.exportedName property ≠ Naming.exportedName rival →
        index.helperName parent property ≠ index.helperName parent rival := by
  intro apart
  exact apart bootIndex "Spec" "boot" "boot2" (by decide) (by decide)

end Synthesizer

end SchemaCompiler
