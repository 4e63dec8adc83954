import SchemaCompiler.Proofs.Literals
import SchemaCompiler.Literal
import Mathlib.Tactic.IntervalCases

/-!
Contract: every scalar is written as a literal that can be read.

Owns:
- `Binary64.shortest_sound`, by which the shortest digits of a value start with
  no zero;
- `numberText_chars`, by which the text of every number follows the grammar;
- `ScalarLiteral`, the texts that are one string, one number or one truth value,
  and `scalarLiteral_of_ofScalar?`, by which every default literal is one.

Does not own: reading (`SchemaCompiler.Proofs.Literals`).
-/

namespace SchemaCompiler

/-! ## Shortest digits -/

namespace Binary64

theorem RoundingInterval.low_inUnitsOf_pos {interval : RoundingInterval}
    (positive : 0 < interval.low) (power : Int) : 0 < (interval.inUnitsOf power).low := by
  unfold inUnitsOf
  split
  · exact positive
  · exact Nat.mul_pos positive (Nat.pow_pos (by decide))

theorem RoundingInterval.contains_of_nearestInteger? {interval : RoundingInterval} {digits : Nat}
    (nearest : interval.nearestInteger? = some digits) : interval.contains digits = true := by
  simp only [nearestInteger?] at nearest
  split at nearest
  · cases nearest
  · rename_i below above
    exact Option.some.inj nearest ▸ below
  · rename_i below above
    exact Option.some.inj nearest ▸ above
  · rename_i below above
    split at nearest
    · exact Option.some.inj nearest ▸ below
    · split at nearest
      · exact Option.some.inj nearest ▸ above
      · rw [← Option.some.inj nearest]
        split
        · exact below
        · exact above

/-- An interval above zero does not hold zero. -/
theorem RoundingInterval.ne_zero_of_contains {interval : RoundingInterval}
    (positive : 0 < interval.low) {digits : Nat} (inside : interval.contains digits = true) :
    digits ≠ 0 := by
  rintro rfl
  simp only [contains, Nat.zero_mul] at inside
  split at inside
  · simp only [Bool.and_eq_true, decide_eq_true_eq] at inside
    omega
  · simp at inside

theorem low_roundingInterval_pos {value : Binary64} (nonzero : value.significand ≠ 0) :
    0 < value.roundingInterval.low := by
  unfold roundingInterval
  refine Nat.mul_pos ?_ ?_
  · split <;> omega
  · split
    · exact Nat.pow_pos (by decide)
    · decide

end Binary64

theorem ShortDecimal.trimmed_ne_zero {decimal : ShortDecimal} (nonzero : decimal.digits ≠ 0)
    (fuel : Nat) : (decimal.trimmed fuel).digits ≠ 0 := by
  induction fuel generalizing decimal with
  | zero => exact nonzero
  | succ fuel inductionHypothesis =>
      rw [trimmed]
      split
      · rename_i trailing
        have shorter : decimal.digits / 10 ≠ 0 := by omega
        exact inductionHypothesis shorter
      · exact nonzero

/-- The shortest digits of a value other than zero are not all zeros, unless no
digits were found at all. -/
theorem Binary64.shortest_sound {value : Binary64} (nonzero : value.significand ≠ 0) :
    value.shortest.digits ≠ 0 ∨ value.shortest = ⟨0, 0⟩ := by
  simp only [shortest]
  cases found : (List.range 17).findSome? _ with
  | none => exact Or.inr rfl
  | some decimal =>
      left
      obtain ⟨count, -, candidate⟩ := List.exists_of_findSome?_eq_some found
      obtain ⟨digits, nearest, rfl⟩ := Option.map_eq_some_iff.1 candidate
      have positive := (low_roundingInterval_pos nonzero)
      have inside := RoundingInterval.contains_of_nearestInteger? nearest
      have digitsNonzero : digits ≠ 0 :=
        RoundingInterval.ne_zero_of_contains (RoundingInterval.low_inUnitsOf_pos positive _) inside
      exact ShortDecimal.trimmed_ne_zero digitsNonzero 17

/-! ## Number texts -/

namespace DecimalNotation

open Json

theorem digits_digitText (number : Nat) : Digits (digitText number) where
  nonempty := Nat.toDigits_ne_nil
  digit _ member := Nat.isDigit_of_mem_toDigits (by decide) (by decide) member

/-- The digits of a number other than zero do not start with a zero. -/
theorem head?_digitText {number : Nat} (nonzero : number ≠ 0) :
    (digitText number).head? ≠ some '0' := by
  induction number using Nat.strongRecOn with
  | ind number inductionHypothesis =>
      by_cases small : number < 10
      · rw [digitText, Nat.toDigits_of_lt_base small]
        interval_cases number <;> simp_all
      · rw [digitText, Nat.toDigits_of_base_le (by decide) (by omega)]
        have shorter := inductionHypothesis (number / 10) (by omega) (by omega)
        cases front : Nat.toDigits 10 (number / 10) with
        | nil => exact absurd front Nat.toDigits_ne_nil
        | cons first others =>
            rw [digitText, front] at shorter
            exact shorter

theorem lead_digitText (number : Nat) :
    (digitText number).head? = some '0' → (digitText number).length = 1 := by
  intro zero
  by_cases nonzero : number = 0
  · subst nonzero
    rfl
  · exact absurd zero (head?_digitText nonzero)

/-- The digits of a number are a number text of their own. -/
theorem numberText_digitText {sign : List Char} (signed : sign = [] ∨ sign = ['-'])
    (number : Nat) : NumberText (sign ++ digitText number) := by
  simpa using NumberText.intro signed (digits_digitText number) (lead_digitText number) .none .none

theorem isDigit_of_mem_zeros {count : Nat} {character : Char}
    (member : character ∈ List.replicate count '0') : character.isDigit = true := by
  rw [List.eq_of_mem_replicate member]
  rfl

end DecimalNotation

namespace Json.Digits

variable {digits : List Char}

theorem padded (run : Digits digits) (count : Nat) :
    Digits (digits ++ List.replicate count '0') := by
  refine ⟨List.append_ne_nil_of_left_ne_nil run.nonempty _, ?_⟩
  intro character member
  rcases List.mem_append.1 member with digit | zero
  · exact run.digit character digit
  · exact DecimalNotation.isDigit_of_mem_zeros zero

theorem take (run : Digits digits) (count : Nat) : Digits (digits.take (count + 1)) where
  nonempty := by simpa using run.nonempty
  digit character member := run.digit character (List.mem_of_mem_take member)

/-- Taking one digit only leaves no zero in front of others. -/
theorem lead_take (run : Digits digits) {count : Nat}
    (lead : digits.head? = some '0' → count = 0) :
    (digits.take (count + 1)).head? = some '0' → (digits.take (count + 1)).length = 1 := by
  intro zero
  cases digits with
  | nil => exact absurd rfl run.nonempty
  | cons first others =>
      rw [lead zero]
      rfl

/-- What is left of a run of digits, or a zero in its place. -/
theorem dropOrZero (run : Digits digits) (count : Nat) :
    Digits (if (digits.drop count).isEmpty then ['0'] else digits.drop count) := by
  split
  · exact ⟨by simp, by simp⟩
  · rename_i rest
    exact ⟨by simpa using rest, fun character member =>
      run.digit character (List.mem_of_mem_drop member)⟩

end Json.Digits

namespace DecimalNotation

open Json

/-- Positional text follows the grammar, unless a zero in front is followed by
further digits. -/
theorem numberText_positional {sign digits : List Char} {exponent : Int}
    (signed : sign = [] ∨ sign = ['-']) (run : Digits digits)
    (lead : digits.head? = some '0' → exponent = 0) :
    NumberText (sign ++ positional digits exponent) := by
  unfold positional
  split
  · have decimals : Digits (List.replicate (-exponent - 1).toNat '0' ++ digits) := by
      refine ⟨List.append_ne_nil_of_right_ne_nil _ run.nonempty, ?_⟩
      intro character member
      rcases List.mem_append.1 member with zero | digit
      · exact isDigit_of_mem_zeros zero
      · exact run.digit character digit
    have zero : Digits ['0'] := ⟨by simp, by simp⟩
    simpa using NumberText.intro signed zero (fun _ => rfl) (.pointed decimals) .none
  · have padded := run.padded (exponent.toNat + 1 - digits.length)
    have whole := padded.take exponent.toNat
    have single : (digits ++ List.replicate (exponent.toNat + 1 - digits.length) '0').head? =
        some '0' → exponent.toNat = 0 := by
      intro zero
      cases digits with
      | nil => exact absurd rfl run.nonempty
      | cons first others => exact congrArg Int.toNat (lead zero)
    have wholeLead := padded.lead_take single
    have decimals := padded.dropOrZero (exponent.toNat + 1)
    simpa using NumberText.intro signed whole wholeLead (.pointed decimals) .none

theorem numberText_scientific {sign digits : List Char} (exponent : Int)
    (signed : sign = [] ∨ sign = ['-']) (run : Digits digits) :
    NumberText (sign ++ scientific digits exponent) := by
  have raised : ExponentText (['e', if exponent < 0 then '-' else '+'] ++
      digitText exponent.natAbs) := by
    refine .raised ?_ (digits_digitText _)
    split
    · exact Or.inr rfl
    · exact Or.inl rfl
  unfold scientific
  obtain ⟨nonempty, digit⟩ := run
  obtain _ | ⟨first, _ | ⟨next, rest⟩⟩ := digits
  · exact absurd rfl nonempty
  · have whole : Digits [first] := ⟨nonempty, digit⟩
    simpa using NumberText.intro signed whole (fun _ => rfl) .none raised
  · rw [List.forall_mem_cons] at digit
    have whole : Digits [first] := ⟨by simp, by simpa using digit.1⟩
    have decimals : Digits (next :: rest) := ⟨by simp, digit.2⟩
    simpa using NumberText.intro signed whole (fun _ => rfl) (.pointed decimals) raised

theorem numberText_render (format : DecimalNotation) (value : Binary64) :
    NumberText (format.render value) := by
  have signed : (if value.isNegative then ['-'] else []) = [] ∨
      (if value.isNegative then ['-'] else []) = ['-'] := by
    split
    · exact Or.inr rfl
    · exact Or.inl rfl
  unfold render
  dsimp only
  split
  · have zero : Digits ['0'] := ⟨by simp, by simp⟩
    simpa using NumberText.intro signed zero (fun _ => rfl) (.pointed zero) .none
  · rename_i nonzero
    have run := digits_digitText value.shortest.digits
    split
    · refine numberText_positional signed run fun zero => ?_
      rcases value.shortest_sound nonzero with digits | none
      · exact absurd zero (head?_digitText digits)
      · rw [none]
        rfl
    · exact numberText_scientific _ signed run

end DecimalNotation

/-- Every number is written as a number text. -/
theorem Json.numberText_chars (number : Json.Number) : NumberText number.chars := by
  cases number with
  | float value => exact DecimalNotation.numberText_render _ value
  | integer value =>
      cases value with
      | ofNat number =>
          show NumberText number.repr.toList
          rw [Nat.toList_repr]
          exact DecimalNotation.numberText_digitText (Or.inl rfl) number
      | negSucc number =>
          show NumberText ("-" ++ (number + 1).repr).toList
          rw [String.toList_append, Nat.toList_repr]
          exact DecimalNotation.numberText_digitText (Or.inr rfl) (number + 1)

/-! ## Scalar literals -/

/-- The texts that are one string, one number or one truth value, each with what
reading it gives. -/
inductive ScalarLiteral (text : String) : Prop where
  | string {content : String} (written : text = Json.quoted content)
      (read : Json.parse text = some (.string content)) : ScalarLiteral text
  | number {number : Json.Number} (written : text = (Json.number number).compact)
      (read : ∃ numeral, Json.parse text = some (.number numeral)) : ScalarLiteral text
  | bool {value : Bool} (written : text = (Json.bool value).compact)
      (read : Json.parse text = some (.bool value)) : ScalarLiteral text

theorem scalarLiteral_quoted (content : String) : ScalarLiteral (Json.quoted content) :=
  .string rfl (Json.parse_quoted content)

theorem scalarLiteral_number (number : Json.Number) :
    ScalarLiteral (Json.number number).scalarText :=
  .number rfl (Json.numberText_chars number).parse

theorem scalarLiteral_bool (value : Bool) : ScalarLiteral (Json.bool value).scalarText := by
  cases value with
  | false => exact .bool rfl rfl
  | true => exact .bool rfl rfl

/-- A scalar literal is on one line and holds no control character. -/
theorem ScalarLiteral.le_toNat {text : String} (literal : ScalarLiteral text) {character : Char}
    (member : character ∈ text.toList) : 0x20 ≤ character.toNat := by
  cases literal with
  | string written => exact Json.le_toNat_of_mem_quoted (written ▸ member)
  | @number number written =>
      rw [written, Json.compact, String.toList_ofList] at member
      exact (Json.numberText_chars number).le_toNat member
  | @bool value written =>
      rw [written, Json.compact, String.toList_ofList] at member
      have letters : ("false".toList ++ "true".toList).all fun letter => 0x20 ≤ letter.toNat := by
        decide
      have inWords : character ∈ "false".toList ++ "true".toList := by
        cases value with
        | false => exact List.mem_append_left _ member
        | true => exact List.mem_append_right _ member
      simpa using List.all_eq_true.1 letters character inWords

namespace Literal

/-- A scalar is written as a literal under every base. -/
theorem scalarLiteral_of_ofScalar? {base : TypeExpr} {value : Json} {literal : String}
    (written : ofScalar? base value = some literal) : ScalarLiteral literal := by
  rw [ofScalar?] at written
  split at written
  · rename_i scalar
    rw [← Option.some.inj written, ofScalar.eq_def]
    split
    · exact scalarLiteral_quoted _
    · exact scalarLiteral_quoted _
    · cases value with
      | number number => exact scalarLiteral_number number
      | bool flag => exact scalarLiteral_bool flag
      | string text =>
          rename_i noText
          exact absurd rfl (noText text)
      | null => cases scalar
      | array items => cases scalar
      | object entries => cases scalar
  · cases written

end Literal

end SchemaCompiler
