import SchemaCompiler.Synthesis.Enumeration
import Mathlib.Data.List.Nodup

/-!
Contract: the names of enumeration constants.

Owns:
- `Naming.enumConstantName_eq_iff`, the companion names that one constant name
  is made of;
- `SchemaNode.enumeration?_constants`: one constant for each literal, and the
  exact conditions under which the constants have names of their own and none is
  called like the type.

The type name goes in front of a companion name unless it is there already. So
a companion and the same companion with the type name written in front ask for
one constant name, and a companion that is the type name asks for that.

Does not own: which constant names are identifiers
(`SchemaCompiler.Proofs.Identifiers`), and literals
(`SchemaCompiler.Proofs.ConstantLiterals`).
-/

namespace SchemaCompiler

namespace Naming

variable {typeName : String}

/-! ## One constant name -/

theorem startsWith_append (lead ending : String) : startsWith (lead ++ ending) lead = true := by
  rw [startsWith, String.toList_append]
  exact List.isPrefixOf_iff_prefix.2 (List.prefix_append _ _)

theorem startsWith_self (text : String) : startsWith text text = true := by
  rw [startsWith]
  exact List.isPrefixOf_iff_prefix.2 (List.prefix_refl _)

theorem enumConstantName_of_startsWith {companion : String}
    (led : startsWith companion typeName = true) :
    enumConstantName typeName companion = companion := by
  rw [enumConstantName]
  split
  · rename_i empty
    rw [empty, startsWith, List.isPrefixOf_iff_prefix, String.toList_empty,
      List.prefix_nil] at led
    rw [empty, String.toList_eq_nil_iff.1 led]
  · exact if_pos led

theorem enumConstantName_of_not_startsWith {companion : String}
    (bare : startsWith companion typeName = false) :
    enumConstantName typeName companion = typeName ++ companion := by
  rw [enumConstantName]
  split
  · rename_i empty
    rw [empty, String.append_empty]
  · exact if_neg (Bool.eq_false_iff.1 bare)

/-- Different companion names make one constant name when one of them is the
other with the type name in front, which the other does not begin with. -/
theorem enumConstantName_eq_iff {left right : String} (different : left ≠ right) :
    enumConstantName typeName left = enumConstantName typeName right ↔
      startsWith left typeName = false ∧ right = typeName ++ left ∨
        startsWith right typeName = false ∧ left = typeName ++ right := by
  cases ofLeft : startsWith left typeName with
  | true =>
      rw [enumConstantName_of_startsWith ofLeft]
      cases ofRight : startsWith right typeName with
      | true => simp [enumConstantName_of_startsWith ofRight, different]
      | false => simp [enumConstantName_of_not_startsWith ofRight]
  | false =>
      rw [enumConstantName_of_not_startsWith ofLeft]
      cases ofRight : startsWith right typeName with
      | true => simp [enumConstantName_of_startsWith ofRight, eq_comm]
      | false =>
          -- A companion that the type name was put before would begin with it.
          have apart {one other : String} (bare : startsWith one typeName = false) :
              one ≠ typeName ++ other := by
            rintro rfl
            rw [startsWith_append] at bare
            cases bare
          simp [enumConstantName_of_not_startsWith ofRight, different, apart ofLeft,
            apart ofRight]

/-- A constant is called like the type when its companion is, or is empty. -/
theorem enumConstantName_eq_typeName_iff {companion : String} :
    enumConstantName typeName companion = typeName ↔ companion = typeName ∨ companion = "" := by
  cases led : startsWith companion typeName with
  | true =>
      rw [enumConstantName_of_startsWith led]
      refine ⟨Or.inl, ?_⟩
      rintro (same | rfl)
      · exact same
      · rw [← enumConstantName_of_startsWith led, enumConstantName, if_pos rfl]
  | false =>
      rw [enumConstantName_of_not_startsWith led]
      have other : companion ≠ typeName := by
        rintro rfl
        rw [startsWith_self] at led
        cases led
      simp [other]

/-! ## The constant names of an enumeration -/

/-- Distinct companions have distinct constant names, unless one of them, which
does not begin with the type name, is there with the type name in front as
well. -/
theorem nodup_enumConstantNames_iff {companions : List String} (distinct : companions.Nodup) :
    (companions.map (enumConstantName typeName)).Nodup ↔
      ∀ companion ∈ companions, typeName ++ companion ∈ companions →
        startsWith companion typeName = true := by
  rw [List.nodup_map_iff_inj_on distinct]
  constructor
  · intro injective companion listed prefixed
    by_contra bare
    rw [Bool.not_eq_true] at bare
    have different : companion ≠ typeName ++ companion := by
      intro same
      rw [same, startsWith_append] at bare
      cases bare
    have clash := (enumConstantName_eq_iff different).2 (Or.inl ⟨bare, rfl⟩)
    exact different (injective _ listed _ prefixed clash)
  · intro settled left leftListed right rightListed same
    by_contra different
    rcases (enumConstantName_eq_iff different).1 same with ⟨bare, rfl⟩ | ⟨bare, rfl⟩
    · rw [settled left leftListed rightListed] at bare
      cases bare
    · rw [settled right rightListed leftListed] at bare
      cases bare

theorem typeName_mem_enumConstantNames_iff {companions : List String} :
    typeName ∈ companions.map (enumConstantName typeName) ↔
      typeName ∈ companions ∨ "" ∈ companions := by
  simp only [List.mem_map, enumConstantName_eq_typeName_iff]
  constructor
  · rintro ⟨companion, listed, rfl | rfl⟩
    · exact Or.inl listed
    · exact Or.inr listed
  · rintro (listed | listed)
    · exact ⟨_, listed, Or.inl rfl⟩
    · exact ⟨_, listed, Or.inr rfl⟩

end Naming

namespace SchemaNode

variable {node : SchemaNode}

/-! ## One constant for each literal -/

theorem length_enumNames (enumerates : node.isEnum = true) :
    node.enumNames.length = node.enumValues.length := by
  simp only [isEnum, Bool.and_eq_true, beq_iff_eq] at enumerates
  exact enumerates.2

/-- What depends on the companion name alone is listed in the order of the
companion names. -/
theorem map_enumConstants_of_name {α : Type} (enumerates : node.isEnum = true)
    (typeName : String) (base : TypeExpr) (part : EnumConstant → α) (ofName : String → α)
    (named : ∀ companion literal,
      part ⟨companion, Naming.enumConstantName typeName companion, literal⟩ = ofName companion) :
    (node.enumConstants typeName base).map part = node.enumNames.map ofName := by
  have lengths := length_enumNames enumerates
  rw [enumConstants, List.map_zipWith]
  simp only [named]
  rw [← List.map_uncurry_zip_eq_zipWith]
  change (node.enumValues.zip node.enumNames).map (ofName ∘ Prod.snd) = _
  rw [← List.map_map, List.map_snd_zip (Nat.le_of_eq lengths)]

/-- What depends on the literal's value alone is listed in the order of the
values. -/
theorem map_literal_enumConstants (enumerates : node.isEnum = true) (typeName : String)
    (base : TypeExpr) :
    (node.enumConstants typeName base).map EnumConstant.literal =
      node.enumValues.map (Literal.ofScalar base) := by
  have lengths := length_enumNames enumerates
  rw [enumConstants, List.map_zipWith, ← List.map_uncurry_zip_eq_zipWith]
  change (node.enumValues.zip node.enumNames).map (Literal.ofScalar base ∘ Prod.fst) = _
  rw [← List.map_map, List.map_fst_zip (Nat.le_of_eq lengths.symm)]

/-- An enumeration has one constant for each literal, in order and with the
companion name as declared. When the companion names are distinct, so are the
constant names, except where a companion that does not begin with the type name
is listed a second time with the type name in front. A constant is called like
the type exactly when the type name or an empty name is among the companions. -/
theorem enumeration?_constants {name : String} {definition : TypeDefinition}
    (enumerates : node.enumeration? name = some definition) :
    ∃ constants, definition.shape = .enumeration (Primitive.literalBase node.type) constants ∧
      constants.map EnumConstant.literal =
        node.enumValues.map (Literal.ofScalar (Primitive.literalBase node.type)) ∧
      constants.map EnumConstant.name = node.enumNames ∧
      (node.enumNames.Nodup →
        ((constants.map EnumConstant.constantName).Nodup ↔
          ∀ companion ∈ node.enumNames, definition.name ++ companion ∈ node.enumNames →
            startsWith companion definition.name = true)) ∧
      (definition.name ∈ constants.map EnumConstant.constantName ↔
        definition.name ∈ node.enumNames ∨ "" ∈ node.enumNames) := by
  obtain ⟨isEnum, -, rfl⟩ := enumeration?_eq_some_iff.1 enumerates
  have names := map_enumConstants_of_name isEnum (node.enumName name)
    (Primitive.literalBase node.type) EnumConstant.constantName
    (Naming.enumConstantName (node.enumName name)) fun _ _ => rfl
  have companions := map_enumConstants_of_name isEnum (node.enumName name)
    (Primitive.literalBase node.type) EnumConstant.name id fun _ _ => rfl
  rw [List.map_id] at companions
  refine ⟨_, rfl, map_literal_enumConstants isEnum _ _, companions, ?_, ?_⟩
  · intro distinct
    rw [names]
    exact Naming.nodup_enumConstantNames_iff distinct
  · rw [names]
    exact Naming.typeName_mem_enumConstantNames_iff

/-! ## Sizes -/

def sizeNode : SchemaNode :=
  { type := some .integer, enumValues := [.number (.integer 1), .number (.integer 2)]
    enumNames := ["Small", "SizeLarge"] }

/-- One companion has the type name in front already, and the constants keep
apart. -/
theorem enumeration?_constants_size :
    ∃ definition, sizeNode.enumeration? "size" = some definition ∧
      ∃ constants, definition.shape = .enumeration .int constants ∧
        constants.map EnumConstant.literal = ["1", "2"] ∧
        constants.map EnumConstant.name = ["Small", "SizeLarge"] ∧
        (constants.map EnumConstant.constantName).Nodup ∧
        "Size" ∉ constants.map EnumConstant.constantName := by
  have made : sizeNode.enumeration? "size" = some (.enumeration "Size" .int
      [⟨"Small", "SizeSmall", "1"⟩, ⟨"SizeLarge", "SizeLarge", "2"⟩]) := rfl
  refine ⟨_, made, ?_⟩
  obtain ⟨constants, shape, literals, names, distinct, typed⟩ := enumeration?_constants made
  cases shape
  refine ⟨_, rfl, literals, names, (distinct (by decide)).2 (by decide), ?_⟩
  intro listed
  exact absurd (typed.1 listed) (by decide)

def clashingNode : SchemaNode :=
  { type := some .integer
    enumValues := [.number (.integer 1), .number (.integer 2), .number (.integer 3)]
    enumNames := ["Small", "SizeSmall", "Size"] }

/-- Three distinct companions make two constants of one name, and a third that is
called like the type. -/
theorem enumeration?_constants_clash :
    clashingNode.enumNames.Nodup ∧ "" ∉ clashingNode.enumNames ∧
      ∃ definition base constants, clashingNode.enumeration? "size" = some definition ∧
        definition.shape = .enumeration base constants ∧
        ¬ (constants.map EnumConstant.constantName).Nodup ∧
        definition.name ∈ constants.map EnumConstant.constantName := by
  refine ⟨by decide, by decide, .enumeration "Size" .int
    [⟨"Small", "SizeSmall", "1"⟩, ⟨"SizeSmall", "SizeSmall", "2"⟩, ⟨"Size", "Size", "3"⟩],
    _, _, rfl, rfl, by decide, by decide⟩

end SchemaNode

end SchemaCompiler
