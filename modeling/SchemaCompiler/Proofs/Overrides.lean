import SchemaCompiler.Manifest.Override
import SchemaCompiler.Proofs.Numerals

/-!
Contract: which shapes of a field override mean what.

Owns:
- `FieldOverride.IsRecord`, the mappings that are read as records, and
  `FieldOverride.ofKnownKeys`, the override that the known keys of one give;
- `FieldOverride.typeOfValue`, the type text that the value of a first entry gives;
- `ofRecord?_eq_some_iff`, by which reading a record succeeds on these mappings and
  gives this override;
- `FieldOverride.ofJson_decides`: a text is a name, every mapping with entries is a
  record or is read by its first entry, and all other values are faults.

A key of a record may also be the name of a field. Which of the two it is depends
on the values of the known keys alone, and never on their order.

Does not own: the values that a manifest holds (`SchemaCompiler.Manifest.Reader`).
-/

namespace SchemaCompiler.FieldOverride

/-! ## Records -/

/-- The text under a key. An empty one counts as none. -/
def textUnder (entries : List (String × Json)) (key : String) : Option String :=
  match Entries.find? entries key with
  | some (.string text) => if text = "" then none else some text
  | _ => none

/-- The value under a key. Null counts as none. -/
def valueUnder (entries : List (String × Json)) (key : String) : Option Json :=
  match Entries.find? entries key with
  | none | some .null => none
  | some value => some value

/-- The override that the known keys of a mapping give. -/
def ofKnownKeys (entries : List (String × Json)) : FieldOverride where
  name := (textUnder entries "name").getD ""
  type := textUnder entries "type"
  description := textUnder entries "description"
  default := valueUnder entries "default"

/-- The known keys have the right shape, and at least one of them says something. -/
structure IsRecord (entries : List (String × Json)) : Prop where
  name : Entries.find? entries "name" = none ∨
    ∃ text, Entries.find? entries "name" = some (.string text)
  texts : ∀ key ∈ ["type", "description"], Entries.find? entries key = none ∨
    Entries.find? entries key = some .null ∨
      ∃ text, Entries.find? entries key = some (.string text)
  usable : (∃ key ∈ ["name", "type", "description"], (textUnder entries key).isSome = true) ∨
    (valueUnder entries "default").isSome = true

/-- The type that the value of a first entry gives: a text unless it is empty, and
a number or a truth value as it is written. -/
def typeOfValue : Json → Option String
  | .string text => if text = "" then none else some text
  | .number number => some (String.ofList number.chars)
  | .bool true => some "true"
  | .bool false => some "false"
  | .null | .array _ | .object _ => none

variable {entries : List (String × Json)} {key : String}

theorem nonEmpty_some (text : String) :
    nonEmpty (some text) = if text = "" then none else some text := by
  by_cases empty : text = ""
  · simp [nonEmpty, Option.filter_some, empty]
  · simp [nonEmpty, Option.filter_some, empty]

/-- A name is given by a text, and is empty when there is none. -/
theorem recordName_find?_eq_some_iff {name : String} :
    recordName (Entries.find? entries key) = some name ↔
      (Entries.find? entries key = none ∨
        ∃ text, Entries.find? entries key = some (.string text)) ∧
        name = (textUnder entries key).getD "" := by
  unfold textUnder
  cases Entries.find? entries key with
  | none => simp [recordName, eq_comm]
  | some value =>
      cases value with
      | string text =>
          by_cases empty : text = ""
          · simp [recordName, empty, eq_comm]
          · simp [recordName, empty, eq_comm]
      | _ => simp [recordName]

/-- An optional text is given by a text, and neither null nor an empty text gives
one. -/
theorem nonEmpty_optionalText_find?_eq_some_iff {text : Option String} :
    (optionalText (Entries.find? entries key)).map nonEmpty = some text ↔
      (Entries.find? entries key = none ∨ Entries.find? entries key = some .null ∨
        ∃ written, Entries.find? entries key = some (.string written)) ∧
        text = textUnder entries key := by
  have nothing : nonEmpty none = none := rfl
  unfold textUnder
  cases Entries.find? entries key with
  | none => simp [optionalText, nothing, eq_comm]
  | some value =>
      cases value with
      | null => simp [optionalText, nothing, eq_comm]
      | string written => simp [optionalText, nonEmpty_some, eq_comm]
      | _ => simp [optionalText]

theorem filter_find?_eq_valueUnder :
    (Entries.find? entries key).filter (fun value => !value.isNull) = valueUnder entries key := by
  unfold valueUnder
  cases Entries.find? entries key with
  | none => rfl
  | some value => cases value <;> rfl

/-- Something usable is given when the override has a name or anything beside. -/
theorem usable_iff : (ofKnownKeys entries).name ≠ "" ∨ (ofKnownKeys entries).hasOverride = true ↔
    (∃ key ∈ ["name", "type", "description"], (textUnder entries key).isSome = true) ∨
      (valueUnder entries "default").isSome = true := by
  have named : (textUnder entries "name").getD "" ≠ "" ↔
      (textUnder entries "name").isSome = true := by
    unfold textUnder
    cases Entries.find? entries "name" with
    | none => simp
    | some value =>
        cases value with
        | string text => by_cases empty : text = "" <;> simp [empty]
        | _ => simp
  simp only [ofKnownKeys, hasOverride, named, Bool.or_eq_true, List.mem_cons, List.not_mem_nil,
    or_false, exists_eq_or_imp, exists_eq_left, or_assoc]

/-- Reading a record succeeds on the mappings that are one, and gives what the
known keys say. -/
theorem ofRecord?_eq_some_iff {field : FieldOverride} :
    ofRecord? entries = some field ↔ IsRecord entries ∧ field = ofKnownKeys entries := by
  constructor
  · intro read
    obtain ⟨name, named, afterName⟩ := Option.bind_eq_some_iff.1 read
    obtain ⟨type, typed, afterType⟩ := Option.bind_eq_some_iff.1 afterName
    obtain ⟨description, described, last⟩ := Option.bind_eq_some_iff.1 afterType
    obtain ⟨nameShape, sameName⟩ := recordName_find?_eq_some_iff.1 named
    obtain ⟨typeShape, sameType⟩ :=
      nonEmpty_optionalText_find?_eq_some_iff.1 (congrArg (Option.map nonEmpty) typed)
    obtain ⟨descriptionShape, sameDescription⟩ :=
      nonEmpty_optionalText_find?_eq_some_iff.1 (congrArg (Option.map nonEmpty) described)
    simp only [sameName, sameType, sameDescription, filter_find?_eq_valueUnder] at last
    split at last
    · rename_i given
      cases last
      refine ⟨⟨nameShape, ?_, usable_iff.1 given⟩, rfl⟩
      simpa using ⟨typeShape, descriptionShape⟩
    · cases last
  · rintro ⟨record, rfl⟩
    have named := recordName_find?_eq_some_iff.2 ⟨record.name, rfl⟩
    obtain ⟨type, typed, sameType⟩ := Option.map_eq_some_iff.1
      (nonEmpty_optionalText_find?_eq_some_iff.2 ⟨record.texts "type" (by simp), rfl⟩)
    obtain ⟨description, described, sameDescription⟩ := Option.map_eq_some_iff.1
      (nonEmpty_optionalText_find?_eq_some_iff.2 ⟨record.texts "description" (by simp), rfl⟩)
    simp only [ofRecord?, named, typed, described, bind, Option.bind_some, sameType,
      sameDescription, filter_find?_eq_valueUnder]
    exact if_pos (usable_iff.2 record.usable)

/-! ## First entries -/

theorem entryType_eq (value : Json) : entryType value = typeOfValue value := by
  cases value with
  | string text => exact nonEmpty_some text
  | number number =>
      obtain ⟨first, rest, written, -⟩ := (Json.numberText_chars number).head
      have present : String.ofList number.chars ≠ "" := by
        rw [written, ne_eq, ← String.toList_inj, String.toList_ofList]
        exact List.cons_ne_nil first rest
      exact (nonEmpty_some _).trans (if_neg present)
  | bool value => cases value <;> rfl
  | null => rfl
  | array items => rfl
  | object entries => rfl

theorem ofJson_of_record (record : IsRecord entries) :
    ofJson (.object entries) = .ok (ofKnownKeys entries) := by
  have read := ofRecord?_eq_some_iff.2 ⟨record, rfl⟩
  simp only [ofJson, read]

theorem ofJson_of_not_record {first : String × Json} {rest : List (String × Json)}
    (other : ¬ IsRecord (first :: rest)) :
    ofJson (.object (first :: rest)) =
      .ok { name := first.1, type := typeOfValue first.2 } := by
  have unread : ofRecord? (first :: rest) = none := by
    rw [Option.eq_none_iff_forall_ne_some]
    intro field read
    exact other (ofRecord?_eq_some_iff.1 read).1
  simp only [ofJson, unread, entryType_eq]

/-- A mapping with entries is read one way or the other. -/
theorem ofJson_mapping_ne_error (first : String × Json) (rest : List (String × Json))
    (fault : OverrideFault) : ofJson (.object (first :: rest)) ≠ .error fault := by
  by_cases record : IsRecord (first :: rest)
  · simp [ofJson_of_record record]
  · simp [ofJson_of_not_record record]

theorem ofJson_eq_error_iff {value : Json} {fault : OverrideFault} :
    ofJson value = .error fault ↔ value = .object [] ∧ fault = .emptyMapping ∨
      (∀ name, value ≠ .string name) ∧ (∀ entries, value ≠ .object entries) ∧
        fault = .invalid value := by
  cases value with
  | string name => simp [ofJson]
  | object entries =>
      cases entries with
      | nil =>
          have unread : ofRecord? [] = none := rfl
          simp [ofJson, unread, eq_comm]
      | cons first rest => simp [ofJson_mapping_ne_error]
  | _ => simp [ofJson, eq_comm]

/-- A text is a name. A mapping is read as a record exactly when its known keys
have the right shape and say something; any other mapping is read by its first
entry. The empty mapping and the values that are neither are the only faults. -/
theorem ofJson_decides :
    (∀ name, ofJson (.string name) =
      .ok { name := name, type := none, description := none, default := none }) ∧
      (∀ entries field, ofRecord? entries = some field ↔
        IsRecord entries ∧ field = ofKnownKeys entries) ∧
      (∀ first rest,
        (IsRecord (first :: rest) →
          ofJson (.object (first :: rest)) = .ok (ofKnownKeys (first :: rest))) ∧
        (¬ IsRecord (first :: rest) →
          ofJson (.object (first :: rest)) =
            .ok { name := first.1, type := typeOfValue first.2, description := none,
                  default := none })) ∧
      ∀ value fault, ofJson value = .error fault ↔
        value = .object [] ∧ fault = .emptyMapping ∨
          (∀ name, value ≠ .string name) ∧ (∀ entries, value ≠ .object entries) ∧
            fault = .invalid value :=
  ⟨fun _ => rfl, fun _ _ => ofRecord?_eq_some_iff,
    fun _ _ => ⟨ofJson_of_record, ofJson_of_not_record⟩, fun _ _ => ofJson_eq_error_iff⟩

/-- Null is no name, so the first of these mappings is read by its first entry and
the description is lost. The other one is a record without a name. -/
theorem ofJson_decides_retries :
    ¬ IsRecord [("name", .null), ("description", .string "Retry count.")] ∧
      ofJson (.object [("name", .null), ("description", .string "Retry count.")]) =
        .ok { name := "name" } ∧
      IsRecord [("Retries", .bool true), ("type", .string "int")] ∧
      ofJson (.object [("Retries", .bool true), ("type", .string "int")]) =
        .ok { name := "", type := some "int" } := by
  obtain ⟨-, -, mappings, -⟩ := ofJson_decides
  have mistyped : ¬ IsRecord [("name", .null), ("description", .string "Retry count.")] := by
    intro record
    rcases record.name with absent | ⟨text, written⟩
    · cases absent
    · cases written
  have nameless : IsRecord [("Retries", .bool true), ("type", .string "int")] := by
    refine ⟨Or.inl rfl, ?_, Or.inl ⟨"type", by decide, rfl⟩⟩
    simp only [List.forall_mem_cons]
    exact ⟨Or.inr (Or.inr ⟨"int", rfl⟩), Or.inl rfl, fun _ member => by cases member⟩
  exact ⟨mistyped, (mappings _ _).2 mistyped, nameless, (mappings _ _).1 nameless⟩

end SchemaCompiler.FieldOverride
