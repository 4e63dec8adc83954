import SchemaCompiler.Proofs.ConstantNames
import SchemaCompiler.Proofs.Delegation
import SchemaCompiler.Proofs.Numerals

/-!
Contract: the literals of enumeration constants.

Owns:
- `StringLiteral`, the texts that are one string, and `ScalarLiteral.first`, the
  characters a scalar literal begins with;
- `Literal.scalarLiteral_ofScalar_iff`: outside a text base, a value is written
  as a scalar literal exactly when it is a scalar;
- `SchemaIndex.synthesizeTypes_constants`: which constants of the generated
  enumerations have a scalar literal.

A default is written only if it is a scalar; the values of an enumeration are
written whatever they are.

Does not own: the grammar of literals (`SchemaCompiler.Proofs.Numerals`).
-/

namespace SchemaCompiler

/-! ## Texts that are no scalar -/

/-- The text is one string. -/
def StringLiteral (text : String) : Prop :=
  ∃ content, text = Json.quoted content ∧ Json.parse text = some (.string content)

/-- A scalar literal begins with a quote, a sign, a digit or the letter of a truth
value. -/
theorem ScalarLiteral.first {text : String} (literal : ScalarLiteral text) :
    ∃ first rest, text.toList = first :: rest ∧
      (first ∈ ['"', '-', 't', 'f'] ∨ first.isDigit = true) := by
  cases literal with
  | @string content written =>
      refine ⟨'"', content.toList.flatMap Json.escaped ++ ['"'], ?_, Or.inl (by simp)⟩
      rw [written, Json.quoted, String.toList_ofList, Json.quotedChars, List.cons_append]
  | @number number written =>
      obtain ⟨first, rest, shape, lead⟩ := (Json.numberText_chars number).head
      refine ⟨first, rest, ?_, lead.imp_left fun sign => by simp [sign]⟩
      rw [written, Json.compact, String.toList_ofList]
      exact shape
  | @bool value written =>
      rw [written]
      cases value with
      | true => exact ⟨'t', ['r', 'u', 'e'], rfl, Or.inl (by simp)⟩
      | false => exact ⟨'f', ['a', 'l', 's', 'e'], rfl, Or.inl (by simp)⟩

namespace Literal

variable {base : TypeExpr} {value : Json}

/-- Under a text base every value is quoted. -/
theorem stringLiteral_ofScalar (value : Json) : StringLiteral (ofScalar .string value) :=
  ⟨value.scalarText, rfl, Json.parse_quoted value.scalarText⟩

/-- Under any other base a value is written as it stands, unless it is a text. -/
theorem ofScalar_of_not_scalar (other : base ≠ .string) (composite : value.isScalar = false) :
    ofScalar base value = value.scalarText := by
  rw [ofScalar.eq_def]
  split
  · exact absurd rfl other
  · cases composite
  · rfl

/-- Null, lists and mappings are written as no scalar literal. -/
theorem not_scalarLiteral_scalarText (composite : value.isScalar = false) :
    ¬ ScalarLiteral value.scalarText := by
  intro literal
  obtain ⟨first, rest, shape, lead⟩ := literal.first
  cases value with
  | null => cases shape
  | array items =>
      change (Json.array items).compact.toList = _ at shape
      rw [Json.compact, String.toList_ofList, Json.compactChars] at shape
      cases shape
      simp at lead
  | object entries =>
      change (Json.object entries).compact.toList = _ at shape
      rw [Json.compact, String.toList_ofList, Json.compactChars] at shape
      cases shape
      simp at lead
  | bool | number | string => cases composite

theorem scalarLiteral_ofScalar_iff (other : base ≠ .string) :
    ScalarLiteral (ofScalar base value) ↔ value.isScalar = true := by
  constructor
  · intro literal
    by_contra composite
    rw [Bool.not_eq_true] at composite
    rw [ofScalar_of_not_scalar other composite] at literal
    exact not_scalarLiteral_scalarText composite literal
  · intro scalar
    exact scalarLiteral_of_ofScalar? (by rw [ofScalar?, if_pos scalar])

end Literal

namespace SchemaIndex

/-- The constants of a generated enumeration stand for the values of the node that
it was made from, in order. Under a text base each constant has a string
literal. Under any other base it has a string, a number or a truth value exactly
when its value is a scalar. -/
theorem synthesizeTypes_constants (index : SchemaIndex) (skip : List String) :
    ∀ definition ∈ index.synthesizeTypes skip, ∀ base constants,
      definition.shape = .enumeration base constants →
        ∃ node, index.MadeFrom node definition ∧ base = Primitive.literalBase node.type ∧
          List.Forall₂ (fun constant value =>
            (base = .string → StringLiteral constant.literal) ∧
              (base ≠ .string → (ScalarLiteral constant.literal ↔ value.isScalar = true)))
            constants node.enumValues := by
  intro definition generated base constants enumerates
  obtain ⟨node, made⟩ := exists_madeFrom_of_mem_synthesizeTypes generated
  obtain ⟨_, _, _, name, -, -, defines⟩ := made.exists_defines
  have found := defines.enumeration?_eq enumerates
  obtain ⟨isEnum, -, rfl⟩ := SchemaNode.enumeration?_eq_some_iff.1 found
  cases enumerates
  have literals := SchemaNode.map_literal_enumConstants isEnum (node.enumName name)
    (Primitive.literalBase node.type)
  rw [← List.forall₂_eq_eq_eq, List.forall₂_map_left_iff, List.forall₂_map_right_iff] at literals
  refine ⟨node, made, rfl, literals.imp fun constant value written => ?_⟩
  rw [written]
  constructor
  · intro text
    rw [text]
    exact Literal.stringLiteral_ofScalar value
  · exact Literal.scalarLiteral_ofScalar_iff

/-! ## Grades -/

/-- An enumeration of numbers with a null and a list among its values. -/
def gradeNode : SchemaNode :=
  { type := some .integer
    enumValues := [.number (.integer 1), .null, .array [.number (.integer 2)]]
    enumNames := ["First", "Unset", "Several"] }

def gradeIndex : SchemaIndex where
  schemas := ⟨[("Grade", .inline gradeNode)], by decide⟩

def gradeConstants : List EnumConstant :=
  [⟨"First", "GradeFirst", "1"⟩, ⟨"Unset", "GradeUnset", ""⟩, ⟨"Several", "GradeSeveral", "[2]"⟩]

theorem synthesizeTypes_gradeIndex :
    gradeIndex.synthesizeTypes [] = [.enumeration "Grade" .int gradeConstants] := by
  have built : gradeIndex.buildAlone "Grade" gradeNode =
      .ok ⟨.enumeration "Grade" .int gradeConstants, []⟩ := rfl
  exact synthesizeTypes_of_only rfl rfl built

/-- The first of the three constants alone has a scalar literal, and stands for a
scalar. -/
theorem synthesizeTypes_constants_grade :
    ∃ node, gradeIndex.MadeFrom node (.enumeration "Grade" .int gradeConstants) ∧
      node.enumValues.map Json.isScalar = [true, false, false] := by
  have generated : .enumeration "Grade" .int gradeConstants ∈ gradeIndex.synthesizeTypes [] := by
    rw [synthesizeTypes_gradeIndex]
    exact List.mem_cons_self
  obtain ⟨node, made, -, matched⟩ :=
    synthesizeTypes_constants gradeIndex [] _ generated .int gradeConstants rfl
  refine ⟨node, made, ?_⟩
  have number : ScalarLiteral "1" := scalarLiteral_number (.integer 1)
  have null : ¬ ScalarLiteral "" :=
    Literal.not_scalarLiteral_scalarText (rfl : Json.null.isScalar = false)
  have list : ¬ ScalarLiteral "[2]" :=
    Literal.not_scalarLiteral_scalarText
      (rfl : (Json.array [.number (.integer 2)]).isScalar = false)
  have noText : TypeExpr.int ≠ .string := by decide
  generalize node.enumValues = values at matched ⊢
  obtain _ | ⟨⟨-, first⟩, _ | ⟨⟨-, second⟩, _ | ⟨⟨-, third⟩, ended⟩⟩⟩ := matched
  cases ended
  have atFirst := (first noText).1 number
  have atSecond := Bool.eq_false_iff.2 fun scalar => null ((second noText).2 scalar)
  have atThird := Bool.eq_false_iff.2 fun scalar => list ((third noText).2 scalar)
  rw [List.map_cons, List.map_cons, List.map_cons, atFirst, atSecond, atThird, List.map_nil]

/-- Not every constant of a generated enumeration has a scalar literal. -/
theorem synthesizeTypes_constant_without_literal :
    ∃ definition ∈ gradeIndex.synthesizeTypes [], ∃ base constants,
      definition.shape = .enumeration base constants ∧
        ∃ constant ∈ constants, constant.literal = "" ∧ ¬ ScalarLiteral constant.literal := by
  rw [synthesizeTypes_gradeIndex]
  refine ⟨_, List.mem_cons_self, _, _, rfl, ⟨"Unset", "GradeUnset", ""⟩,
    List.mem_cons_of_mem _ List.mem_cons_self, rfl, ?_⟩
  exact Literal.not_scalarLiteral_scalarText (rfl : Json.null.isScalar = false)

end SchemaIndex

end SchemaCompiler
