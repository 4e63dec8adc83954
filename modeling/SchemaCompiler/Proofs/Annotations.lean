import SchemaCompiler.Proofs.Identifiers
import SchemaCompiler.Proofs.Numerals

/-!
Contract: the annotation lines of a model.

Owns:
- `FieldDefinition.Noted`, what makes the lines of a field safe: letters and
  digits in its identifier, a description on one line, a scalar default;
- `Annotation.Faithful`, a line that cannot be broken out of and whose last
  argument reads back to what it was written for;
- `SchemaIndex.compile_annotations`, the lines of all types and resources.

Does not own: how literals are read (`SchemaCompiler.Proofs.Literals`).
-/

namespace SchemaCompiler

namespace Text

/-- The text is the one-line form of some text. -/
def Normal (text : String) : Prop :=
  ∃ source, normalized? source = some text

end Text

theorem SchemaNode.normal_of_normalDescription {node : SchemaNode} {description : String}
    (described : node.normalDescription = some description) : Text.Normal description := by
  obtain ⟨source, -, normalized⟩ := Option.bind_eq_some_iff.1 described
  exact ⟨source, normalized⟩

theorem Literal.scalarLiteral_of_ofDefault? {node : SchemaNode} {literal : String}
    (declared : ofDefault? node = some literal) : ScalarLiteral literal := by
  obtain ⟨value, -, written⟩ := Option.bind_eq_some_iff.1 declared
  exact scalarLiteral_of_ofScalar? written

theorem Literal.scalarLiteral_of_ofOverride? {typeText : String} {value : Option Json}
    {literal : String} (declared : ofOverride? typeText value = some literal) :
    ScalarLiteral literal := by
  obtain ⟨scalar, -, written⟩ := Option.bind_eq_some_iff.1 declared
  exact scalarLiteral_of_ofScalar? written

namespace SchemaIndex

variable {index : SchemaIndex}

theorem normal_of_descriptionOf {schema : Schema} {description : String}
    (described : index.descriptionOf schema = some description) : Text.Normal description := by
  cases schema with
  | reference target =>
      obtain ⟨node, -, own⟩ := Option.bind_eq_some_iff.1 described
      exact SchemaNode.normal_of_normalDescription own
  | inline node =>
      rw [descriptionOf] at described
      split at described
      · rename_i own
        exact SchemaNode.normal_of_normalDescription (own.trans described)
      · obtain ⟨parent, -, inherited⟩ := Option.bind_eq_some_iff.1 described
        exact SchemaNode.normal_of_normalDescription inherited

theorem scalarLiteral_of_defaultOf {schema : Schema} {literal : String}
    (declared : index.defaultOf schema = some literal) : ScalarLiteral literal := by
  obtain ⟨node, -, own⟩ := Option.bind_eq_some_iff.1 declared
  exact Literal.scalarLiteral_of_ofDefault? own

end SchemaIndex

/-! ## Fields -/

/-- The lines of the field are safe. -/
structure FieldDefinition.Noted (field : FieldDefinition) : Prop where
  letters : ∀ character ∈ field.exportedName.toList, character.isAlphanum = true
  description : ∀ text, field.description = some text → Text.Normal text
  default : ∀ literal, field.default = some literal → ScalarLiteral literal

namespace SchemaIndex

variable {index : SchemaIndex} {trail : List String} {name : String} {node : SchemaNode}
  {definition : TypeDefinition}

theorem unionFields_noted {fields : List FieldDefinition}
    (made : index.unionFields trail node = .ok fields) : ∀ field ∈ fields, field.Noted := by
  intro field member
  obtain ⟨variant, listed, built⟩ := exists_of_mem_mapM_ok made field member
  obtain ⟨type, -, rfl⟩ := exists_of_map_eq_ok built
  have letters := (Variant.canonical_of_mem_named (List.of_mem_zip listed).1).identifier.letters
  refine ⟨letters, ?_, by rintro _ ⟨⟩⟩
  intro text described
  obtain ⟨target, -, own⟩ := Option.bind_eq_some_iff.1 described
  exact SchemaNode.normal_of_normalDescription own

theorem propertyField_noted (index : SchemaIndex) (property : String) (schema : Schema)
    (type : TypeExpr) (optional : Bool) : (index.propertyField property schema type optional).Noted
    where
  letters _ member := Naming.isAlphanum_of_mem_exportedName member
  description _ described := normal_of_descriptionOf described
  default _ declared := scalarLiteral_of_defaultOf declared

theorem keptByFlattening_noted (index : SchemaIndex) (required : List String) :
    index.KeptByFlattening required fun _ table => ∀ field ∈ table.values, field.Noted :=
  keptByFlattening_forall required (fun _ optional => index.propertyField_noted _ _ _ optional)
    (fun noted _ _ => ⟨noted.letters, noted.description, noted.default⟩) unionFields_noted

theorem fieldNotes_noted (index : SchemaIndex) (resource : String) (field : FieldOverride) :
    (∀ text, (index.fieldNotes resource field).1 = some text → Text.Normal text) ∧
      ∀ literal, (index.fieldNotes resource field).2.1 = some literal → ScalarLiteral literal := by
  rw [fieldNotes]
  split
  · split
    · exact ⟨fun _ described => ⟨_, described⟩, fun _ => Literal.scalarLiteral_of_ofOverride?⟩
    · exact ⟨by rintro _ ⟨⟩, by rintro _ ⟨⟩⟩
  · refine ⟨fun text described => ?_, fun literal declared => ?_⟩
    · obtain ⟨schema, -, own⟩ := Option.bind_eq_some_iff.1 described
      exact normal_of_descriptionOf own
    · obtain ⟨schema, -, own⟩ := Option.bind_eq_some_iff.1 declared
      exact scalarLiteral_of_defaultOf own

theorem resourceField_noted (index : SchemaIndex) (resource : String) (direction : Direction)
    (field : FieldOverride) : (index.resourceField resource direction field).Noted where
  letters _ member := Naming.isAlphanum_of_mem_exportedName member
  description := (index.fieldNotes_noted resource field).1
  default := (index.fieldNotes_noted resource field).2

/-- The fields of a definition have safe lines. -/
theorem Defines.noted (defines : index.Defines trail name node definition) :
    ∀ field ∈ definition.fields, field.Noted := by
  cases defines with
  | enumeration found =>
      obtain ⟨-, -, rfl⟩ := SchemaNode.enumeration?_eq_some_iff.1 found
      intro field member
      cases member
  | union _ built =>
      obtain ⟨fields, made, rfl⟩ := exists_of_map_eq_ok built
      exact unionFields_noted made
  | record _ _ _ contributed inherited =>
      have start := forall_mem_values_empty FieldDefinition.Noted
      exact (index.keptByFlattening_noted _).record start contributed inherited
  | mapping | transparent | distinct =>
      intro field member
      cases member

/-- A definition either has no lines, or those of its description and fields. -/
theorem Defines.annotations_eq (defines : index.Defines trail name node definition) :
    definition.annotations = Annotation.lines definition.description definition.fields ∧
      ∀ text, definition.description = some text → Text.Normal text := by
  cases defines with
  | enumeration found =>
      obtain ⟨-, -, rfl⟩ := SchemaNode.enumeration?_eq_some_iff.1 found
      exact ⟨rfl, by rintro _ ⟨⟩⟩
  | union _ built =>
      obtain ⟨fields, -, rfl⟩ := exists_of_map_eq_ok built
      exact ⟨rfl, fun _ => SchemaNode.normal_of_normalDescription⟩
  | record => exact ⟨rfl, fun _ => SchemaNode.normal_of_normalDescription⟩
  | distinct _ _ described =>
      refine ⟨rfl, ?_⟩
      rintro _ ⟨⟩
      exact SchemaNode.normal_of_normalDescription described
  | mapping | transparent => exact ⟨rfl, by rintro _ ⟨⟩⟩

end SchemaIndex

/-! ## Lines -/

/-- The text holds no control character. -/
def Text.Printable (text : String) : Prop :=
  ∀ character ∈ text.toList, 0x20 ≤ character.toNat

theorem Text.Printable.append {left right : String} (leftPrintable : Text.Printable left)
    (rightPrintable : Text.Printable right) : Text.Printable (left ++ right) := by
  intro character member
  rw [String.toList_append] at member
  rcases List.mem_append.1 member with inLeft | inRight
  · exact leftPrintable character inLeft
  · exact rightPrintable character inRight

theorem Text.printable_of_all {text : String}
    (all : text.toList.all fun character => 0x20 ≤ character.toNat) : Text.Printable text := by
  intro character member
  simpa using List.all_eq_true.1 all character member

theorem Text.printable_of_isAlphanum {text : String}
    (letters : ∀ character ∈ text.toList, character.isAlphanum = true) :
    Text.Printable text := by
  intro character member
  have letter := letters character member
  rw [Naming.isAlphanum_iff, Naming.isUpper_iff, Naming.isLower_iff, Naming.isDigit_iff] at letter
  omega

namespace Annotation

/-- The line is one call whose last argument is a literal: of a description, the
literal of exactly that text; of a default, a scalar. -/
def Faithful (line : Annotation) : Prop :=
  match line with
  | describeType description => ∃ literal,
      line.text = "a.Describe(&dto, " ++ literal ++ ")" ∧
        Json.parse literal = some (.string description) ∧ Text.Normal description
  | describeField field description => ∃ literal,
      line.text = "a.Describe(&dto." ++ field ++ ", " ++ literal ++ ")" ∧
        Json.parse literal = some (.string description) ∧ Text.Normal description
  | setDefault field literal =>
      line.text = "a.SetDefault(&dto." ++ field ++ ", " ++ literal ++ ")" ∧
        ScalarLiteral literal

/-- The parts of a line that do not depend on what it says. -/
theorem printable_frame :
    Text.Printable "a.Describe(&dto, " ∧ Text.Printable "a.Describe(&dto." ∧
      Text.Printable "a.SetDefault(&dto." ∧ Text.Printable ", " ∧ Text.Printable ")" :=
  ⟨Text.printable_of_all (by decide), Text.printable_of_all (by decide),
    Text.printable_of_all (by decide), Text.printable_of_all (by decide),
    Text.printable_of_all (by decide)⟩

theorem faithful_describeType {description : String} (normal : Text.Normal description) :
    (describeType description).Faithful ∧ Text.Printable (describeType description).text := by
  obtain ⟨opening, -, -, -, closing⟩ := printable_frame
  refine ⟨⟨_, rfl, Json.parse_quoted description, normal⟩, ?_⟩
  exact (opening.append fun _ => Json.le_toNat_of_mem_quoted).append closing

theorem faithful_of_mem_ofField {field : FieldDefinition} (noted : field.Noted)
    {line : Annotation} (listed : line ∈ ofField field) :
    line.Faithful ∧ Text.Printable line.text := by
  obtain ⟨-, describing, setting, comma, closing⟩ := printable_frame
  have named := Text.printable_of_isAlphanum noted.letters
  rcases List.mem_append.1 listed with described | defaulted
  · rw [Option.mem_toList, Option.map_eq_some_iff] at described
    obtain ⟨description, stored, rfl⟩ := described
    refine ⟨⟨_, rfl, Json.parse_quoted description, noted.description _ stored⟩, ?_⟩
    exact (((describing.append named).append comma).append
      fun _ => Json.le_toNat_of_mem_quoted).append closing
  · rw [Option.mem_toList, Option.map_eq_some_iff] at defaulted
    obtain ⟨literal, stored, rfl⟩ := defaulted
    have scalar := noted.default _ stored
    refine ⟨⟨rfl, scalar⟩, ?_⟩
    exact (((setting.append named).append comma).append fun _ => scalar.le_toNat).append closing

theorem faithful_of_mem_lines {description : Option String} {fields : List FieldDefinition}
    (normal : ∀ text, description = some text → Text.Normal text)
    (noted : ∀ field ∈ fields, field.Noted) {line : Annotation}
    (listed : line ∈ lines description fields) :
    line.Faithful ∧ Text.Printable line.text := by
  rcases List.mem_append.1 listed with own | inFields
  · rw [Option.mem_toList, Option.map_eq_some_iff] at own
    obtain ⟨text, described, rfl⟩ := own
    exact faithful_describeType (normal text described)
  · obtain ⟨field, member, ofField⟩ := List.mem_flatMap.1 inFields
    exact faithful_of_mem_ofField (noted field member) ofField

end Annotation

/-! ## Models -/

namespace ResourceDefinition

/-- The lines of both directions. -/
def annotations (resource : ResourceDefinition) : List Annotation :=
  resource.inputAnnotations ++ resource.outputAnnotations

end ResourceDefinition

namespace CompiledModel

/-- All lines of a model. -/
def annotations (model : CompiledModel) : List Annotation :=
  model.types.flatMap TypeDefinition.annotations ++
    model.resources.flatMap ResourceDefinition.annotations

end CompiledModel

namespace SchemaIndex

open Annotation in
/-- The lines about the fields of a list: for each one its description, then its
default, where it has them. -/
def fieldLines (fields : List FieldDefinition) : List Annotation :=
  fields.flatMap fun field =>
    (field.description.map (describeField field.exportedName)).toList ++
      (field.default.map (setDefault field.exportedName)).toList

/-- The lines of a model are complete, in order, and cannot be broken out of. -/
theorem compile_annotations (index : SchemaIndex) (manifest : ControlManifest) :
    (∀ definition ∈ (index.compile manifest).types, ∀ fields,
        definition.shape = .record fields →
          definition.annotations =
            (definition.description.map Annotation.describeType).toList ++ fieldLines fields) ∧
      (∀ resource ∈ (index.compile manifest).resources,
        resource.inputAnnotations = fieldLines (resource.inputs.filter FieldDefinition.annotate) ∧
          resource.outputAnnotations =
            fieldLines (resource.outputs.filter FieldDefinition.annotate)) ∧
      ∀ line ∈ (index.compile manifest).annotations,
        line.Faithful ∧ Text.Printable line.text := by
  refine ⟨?types, ?resources, ?lines⟩
  case types =>
    intro definition generated fields flattened
    obtain ⟨trail, name, node, defines⟩ := exists_defines_of_mem_synthesizeTypes generated
    have same : definition.fields = fields := by rw [TypeDefinition.fields, flattened]
    rw [defines.annotations_eq.1, same]
    rfl
  case resources =>
    intro resource assembled
    obtain ⟨entry, -, rfl⟩ := List.mem_map.1 assembled
    exact ⟨rfl, rfl⟩
  case lines =>
    intro line listed
    rcases List.mem_append.1 listed with inTypes | inResources
    · obtain ⟨definition, generated, own⟩ := List.mem_flatMap.1 inTypes
      obtain ⟨trail, name, node, defines⟩ := exists_defines_of_mem_synthesizeTypes generated
      obtain ⟨lines, normal⟩ := defines.annotations_eq
      exact Annotation.faithful_of_mem_lines normal defines.noted (lines ▸ own)
    · obtain ⟨resource, assembled, own⟩ := List.mem_flatMap.1 inResources
      obtain ⟨entry, -, rfl⟩ := List.mem_map.1 assembled
      have noted (direction : Direction) (overrides : List FieldOverride) :
          ∀ field ∈ (overrides.map (index.resourceField entry.1 direction)).filter
            FieldDefinition.annotate, field.Noted := by
        intro field kept
        obtain ⟨override, -, rfl⟩ := List.mem_map.1 (List.mem_of_mem_filter kept)
        exact index.resourceField_noted entry.1 direction override
      rcases List.mem_append.1 own with inInputs | inOutputs
      · exact Annotation.faithful_of_mem_lines (by rintro _ ⟨⟩) (noted .input _) inInputs
      · exact Annotation.faithful_of_mem_lines (by rintro _ ⟨⟩) (noted .output _) inOutputs

/-! ## A description with quotes and a default with a line break -/

def noteNode : SchemaNode :=
  { description := some "say \n \"hi\""
    properties := [("text", .inline { type := some .string, default := some (.string "a\nb") })] }

def noteIndex : SchemaIndex where
  schemas := ⟨[("Note", .inline noteNode)], by decide⟩

def noteField : FieldDefinition :=
  { name := "text", exportedName := "Text", type := .optional .string, optional := true
    tag := ⟨"text", true⟩, description := none, default := some "\"a\\nb\"", annotate := false }

theorem synthesizeTypes_noteIndex :
    noteIndex.synthesizeTypes [] = [.record "Note" (some "say \"hi\"") [noteField]] := by
  have built : noteIndex.buildAlone "Note" noteNode =
      .ok ⟨.record "Note" (some "say \"hi\"") [noteField], []⟩ := by
    unfold buildAlone
    simp only [Synthesizer.build, Synthesizer.namedDefinition, Synthesizer.start,
      recordDefinition, noteNode, contribution, properties, parents, propertyType,
      typeOf_primitive]
    rfl
  exact synthesizeTypes_of_only rfl rfl built

/-- Quotes and the line break are escaped, and the lines hold nothing else that
could end them. -/
theorem compile_annotations_note :
    (noteIndex.compile {}).annotations.map Annotation.text =
        ["a.Describe(&dto, \"say \\\"hi\\\"\")", "a.SetDefault(&dto.Text, \"a\\nb\")"] ∧
      ∀ line ∈ (noteIndex.compile {}).annotations,
        line.Faithful ∧ Text.Printable line.text := by
  have types : (noteIndex.compile {}).types = _ := synthesizeTypes_noteIndex
  obtain ⟨records, -, lines⟩ := compile_annotations noteIndex {}
  have own := records (.record "Note" (some "say \"hi\"") [noteField])
    (by rw [types]; exact List.mem_cons_self) [noteField] rfl
  refine ⟨?_, lines⟩
  rw [CompiledModel.annotations, types, List.flatMap_singleton, own]
  rfl

end SchemaIndex

end SchemaCompiler
