import SchemaCompiler.Model
import Mathlib.Data.List.Perm.Basic

/-!
Contract: which names a model leaves undefined, and in which order.

Owns:
- `TypeExpr.Mentions`, `TypeDefinition.Mentions` and `ResourceDefinition.Mentions`,
  by which a name occurs in a type, in a type definition and in a resource;
- `writtenTypes`, the types that a model is written with, and `InReadingOrder`, the
  order in which they mention names first;
- `inReadingOrder_firstOccurrences`: keeping first occurrences keeps to that order;
- `Undefined`, the names that are mentioned and that nothing is called by;
- `eq_danglingReferences_iff`: the dangling references are the undefined names in
  reading order, and no other list is.

Does not own: why names are left undefined (`SchemaCompiler.Proofs.Dangling`).
-/

namespace SchemaCompiler

variable {name : String}

/-! ## Mentions -/

/-- The name is that of the type itself, or it stands below sequences, maps and
optional layers. -/
inductive TypeExpr.Mentions (name : String) : TypeExpr → Prop where
  | named : Mentions name (.named name)
  | sequence {element : TypeExpr} (inside : Mentions name element) :
      Mentions name (.sequence element)
  | map {value : TypeExpr} (inside : Mentions name value) : Mentions name (.map value)
  | optional {base : TypeExpr} (inside : Mentions name base) : Mentions name (.optional base)

/-- The name occurs in a field, in the target of an alias or in the base of an
enumeration. -/
inductive TypeDefinition.Mentions (name : String) (definition : TypeDefinition) : Prop where
  | field {fields : List FieldDefinition} {field : FieldDefinition}
      (shape : definition.shape = .record fields) (listed : field ∈ fields)
      (inside : field.type.Mentions name)
  | target {target : TypeExpr} {distinct : Bool}
      (shape : definition.shape = .alias target distinct) (inside : target.Mentions name)
  | base {base : TypeExpr} {constants : List EnumConstant}
      (shape : definition.shape = .enumeration base constants) (inside : base.Mentions name)

/-- The name occurs in an input or in an output. -/
inductive ResourceDefinition.Mentions (name : String) (resource : ResourceDefinition) : Prop where
  | input {field : FieldDefinition} (listed : field ∈ resource.inputs)
      (inside : field.type.Mentions name)
  | output {field : FieldDefinition} (listed : field ∈ resource.outputs)
      (inside : field.type.Mentions name)

namespace TypeExpr

variable {type : TypeExpr}

theorem mem_namedLeaves_iff : name ∈ type.namedLeaves ↔ type.Mentions name := by
  constructor
  · intro member
    induction type with
    | named other =>
        rw [List.mem_singleton.1 member]
        exact .named
    | sequence element inductionHypothesis => exact .sequence (inductionHypothesis member)
    | map value inductionHypothesis => exact .map (inductionHypothesis member)
    | optional base inductionHypothesis => exact .optional (inductionHypothesis member)
    | string | integer | int | float | boolean | any | verbatim => cases member
  · intro mentions
    induction mentions with
    | named => exact List.mem_singleton.2 rfl
    | sequence _ inductionHypothesis | map _ inductionHypothesis
    | optional _ inductionHypothesis => exact inductionHypothesis

instance : Decidable (type.Mentions name) :=
  decidable_of_iff (name ∈ type.namedLeaves) mem_namedLeaves_iff

theorem namedLeaves_cases (type : TypeExpr) :
    type.namedLeaves = [] ∨ ∃ name, type.namedLeaves = [name] := by
  induction type with
  | named name => exact Or.inr ⟨name, rfl⟩
  | sequence element inductionHypothesis => exact inductionHypothesis
  | map value inductionHypothesis => exact inductionHypothesis
  | optional base inductionHypothesis => exact inductionHypothesis
  | string | integer | int | float | boolean | any | verbatim => exact Or.inl rfl

/-- A type mentions one name at most. -/
theorem mentions_cases (type : TypeExpr) :
    (type.namedLeaves = [] ∧ ∀ name, ¬ type.Mentions name) ∨
      ∃ name, type.namedLeaves = [name] ∧ ∀ other, type.Mentions other ↔ other = name := by
  rcases type.namedLeaves_cases with silent | ⟨name, one⟩
  · refine Or.inl ⟨silent, fun name => ?_⟩
    rw [← mem_namedLeaves_iff, silent]
    exact List.not_mem_nil
  · refine Or.inr ⟨name, one, fun other => ?_⟩
    rw [← mem_namedLeaves_iff, one, List.mem_singleton]

end TypeExpr

theorem TypeDefinition.mentions_iff {definition : TypeDefinition} :
    definition.Mentions name ↔ ∃ type ∈ definition.types, type.Mentions name := by
  obtain ⟨_, shape, _, _, _⟩ := definition
  constructor
  · intro mentions
    cases mentions with
    | field isRecord listed inside =>
        cases isRecord
        exact ⟨_, List.mem_map_of_mem listed, inside⟩
    | target isAlias inside =>
        cases isAlias
        exact ⟨_, List.mem_singleton.2 rfl, inside⟩
    | base isEnumeration inside =>
        cases isEnumeration
        exact ⟨_, List.mem_singleton.2 rfl, inside⟩
  · rintro ⟨type, listed, inside⟩
    cases shape with
    | record fields =>
        obtain ⟨field, inFields, rfl⟩ := List.mem_map.1 listed
        exact .field rfl inFields inside
    | «alias» target distinct =>
        obtain rfl : type = target := List.mem_singleton.1 listed
        exact .target rfl inside
    | enumeration base constants =>
        obtain rfl : type = base := List.mem_singleton.1 listed
        exact .base rfl inside

/-- The types that a resource is written with, inputs before outputs. -/
def ResourceDefinition.types (resource : ResourceDefinition) : List TypeExpr :=
  resource.inputs.map FieldDefinition.type ++ resource.outputs.map FieldDefinition.type

theorem ResourceDefinition.mentions_iff {resource : ResourceDefinition} :
    resource.Mentions name ↔ ∃ type ∈ resource.types, type.Mentions name := by
  constructor
  · intro mentions
    cases mentions with
    | input listed inside => exact ⟨_, List.mem_append_left _ (List.mem_map_of_mem listed), inside⟩
    | output listed inside =>
        exact ⟨_, List.mem_append_right _ (List.mem_map_of_mem listed), inside⟩
  · rintro ⟨type, listed, inside⟩
    rcases List.mem_append.1 listed with inInputs | inOutputs
    · obtain ⟨field, inFields, rfl⟩ := List.mem_map.1 inInputs
      exact .input inFields inside
    · obtain ⟨field, inFields, rfl⟩ := List.mem_map.1 inOutputs
      exact .output inFields inside

/-! ## The reading order -/

/-- The types that a model is written with: those of the definitions in order, and
then those of the resources in order. -/
def writtenTypes (types : List TypeDefinition) (resources : List ResourceDefinition) :
    List TypeExpr :=
  types.flatMap TypeDefinition.types ++ resources.flatMap ResourceDefinition.types

/-- The place of the first type that mentions the name. A type mentions one name at
most, so different names have different places. -/
def firstMention (written : List TypeExpr) (name : String) : Nat :=
  written.findIdx fun type => type.Mentions name

/-- The names stand in the order in which the types mention them first. -/
def InReadingOrder (written : List TypeExpr) (names : List String) : Prop :=
  names.Pairwise fun earlier later => firstMention written earlier < firstMention written later

section

variable {type : TypeExpr} {rest written : List TypeExpr} {names : List String}

theorem firstMention_of_mentions (mentions : type.Mentions name) :
    firstMention (type :: rest) name = 0 := by
  simp [firstMention, List.findIdx_cons, mentions]

theorem firstMention_of_not_mentions (silent : ¬ type.Mentions name) :
    firstMention (type :: rest) name = firstMention rest name + 1 := by
  simp [firstMention, List.findIdx_cons, silent]

/-- A type that mentions none of the names may be put in front. -/
theorem InReadingOrder.cons (ordered : InReadingOrder rest names)
    (silent : ∀ name ∈ names, ¬ type.Mentions name) : InReadingOrder (type :: rest) names := by
  refine List.Pairwise.imp_of_mem ?_ ordered
  intro earlier later isEarlier isLater before
  rw [firstMention_of_not_mentions (silent earlier isEarlier),
    firstMention_of_not_mentions (silent later isLater)]
  exact Nat.succ_lt_succ before

theorem InReadingOrder.nodup (ordered : InReadingOrder written names) : names.Nodup := by
  refine List.Pairwise.imp ?_ ordered
  rintro earlier later before rfl
  exact Nat.lt_irrefl _ before

/-- There is one way to put names into the order in which they are mentioned. -/
theorem InReadingOrder.eq_of_mem_iff {others : List String}
    (ordered : InReadingOrder written names) (othersOrdered : InReadingOrder written others)
    (same : ∀ name, name ∈ names ↔ name ∈ others) : names = others := by
  have permuted : names.Perm others :=
    (List.perm_ext_iff_of_nodup ordered.nodup othersOrdered.nodup).2 same
  refine permuted.eq_of_pairwise ?_ ordered othersOrdered
  intro earlier later _ _ before after
  exact absurd after (Nat.lt_asymm before)

end

/-- Names kept at their first occurrence are in reading order. -/
theorem inReadingOrder_firstOccurrences (written : List TypeExpr) (seen : List String) :
    InReadingOrder written
      (firstOccurrences seen (written.flatMap TypeExpr.namedLeaves)) := by
  induction written generalizing seen with
  | nil => exact List.Pairwise.nil
  | cons type rest inductionHypothesis =>
      rw [List.flatMap_cons]
      rcases type.mentions_cases with ⟨none, silent⟩ | ⟨name, one, only⟩
      · rw [none, List.nil_append]
        exact (inductionHypothesis seen).cons fun name _ => silent name
      · -- Once the name of the first type has been seen, it is not kept again.
        have silent : ∀ known, name ∈ known →
            ∀ other ∈ firstOccurrences known (rest.flatMap TypeExpr.namedLeaves),
              ¬ type.Mentions other := by
          intro known found other kept mentions
          rw [(only other).1 mentions] at kept
          exact (mem_firstOccurrences_iff.1 kept).2 found
        rw [one, List.singleton_append, firstOccurrences]
        split
        · rename_i found
          exact (inductionHypothesis seen).cons (silent seen found)
        · have later := silent (name :: seen) List.mem_cons_self
          refine List.pairwise_cons.2 ⟨?_, (inductionHypothesis _).cons later⟩
          intro other kept
          rw [firstMention_of_mentions ((only name).2 rfl),
            firstMention_of_not_mentions (later other kept)]
          exact Nat.succ_pos _

/-! ## Dangling references -/

/-- Some type or some resource mentions the name, and none of them is called by it. -/
structure Undefined (types : List TypeDefinition) (resources : List ResourceDefinition)
    (name : String) : Prop where
  mentioned : (∃ definition ∈ types, definition.Mentions name) ∨
    ∃ resource ∈ resources, resource.Mentions name
  noType : ∀ definition ∈ types, definition.name ≠ name
  noResource : ∀ resource ∈ resources, resource.name ≠ name

section

variable {types : List TypeDefinition} {resources : List ResourceDefinition}

theorem mentionedNames_eq (types : List TypeDefinition) (resources : List ResourceDefinition) :
    mentionedNames types resources =
      (writtenTypes types resources).flatMap TypeExpr.namedLeaves := by
  have ofResource : ∀ resource : ResourceDefinition,
      (resource.fields.flatMap fun field => field.type.namedLeaves) =
        resource.types.flatMap TypeExpr.namedLeaves := by
    intro resource
    simp only [ResourceDefinition.fields, ResourceDefinition.types, List.flatMap_append,
      List.flatMap_map]
  rw [mentionedNames, writtenTypes, List.flatMap_append, List.flatMap_assoc, List.flatMap_assoc]
  simp only [ofResource]
  rfl

theorem mem_mentionedNames_iff :
    name ∈ mentionedNames types resources ↔
      (∃ definition ∈ types, definition.Mentions name) ∨
        ∃ resource ∈ resources, resource.Mentions name := by
  rw [mentionedNames_eq, writtenTypes, List.flatMap_append, List.mem_append]
  simp only [TypeDefinition.mentions_iff, ResourceDefinition.mentions_iff, List.mem_flatMap,
    TypeExpr.mem_namedLeaves_iff, List.flatMap_assoc]

theorem not_mem_definedNames_iff :
    name ∉ definedNames types resources ↔
      (∀ definition ∈ types, definition.name ≠ name) ∧
        ∀ resource ∈ resources, resource.name ≠ name := by
  rw [definedNames, List.mem_append, not_or]
  simp only [List.mem_map, not_exists, not_and, ne_eq]

theorem mem_danglingReferences_iff_undefined :
    name ∈ danglingReferences types resources ↔ Undefined types resources name := by
  rw [mem_danglingReferences_iff, mem_mentionedNames_iff, not_mem_definedNames_iff]
  constructor
  · rintro ⟨mentioned, noType, noResource⟩
    exact ⟨mentioned, noType, noResource⟩
  · rintro ⟨mentioned, noType, noResource⟩
    exact ⟨mentioned, noType, noResource⟩

end

/-- The dangling references are the undefined names, each of them once, in the order
in which the types and then the resources mention them first. No other list of names
is all of that. -/
theorem eq_danglingReferences_iff (types : List TypeDefinition)
    (resources : List ResourceDefinition) (names : List String) :
    names = danglingReferences types resources ↔
      (∀ name, name ∈ names ↔ Undefined types resources name) ∧ names.Nodup ∧
        InReadingOrder (writtenTypes types resources) names := by
  have ordered : InReadingOrder (writtenTypes types resources)
      (danglingReferences types resources) := by
    rw [danglingReferences, mentionedNames_eq]
    exact inReadingOrder_firstOccurrences _ _
  constructor
  · rintro rfl
    exact ⟨fun name => mem_danglingReferences_iff_undefined, ordered.nodup, ordered⟩
  · rintro ⟨members, -, namesOrdered⟩
    refine namesOrdered.eq_of_mem_iff ordered fun name => ?_
    rw [members, mem_danglingReferences_iff_undefined]

end SchemaCompiler
