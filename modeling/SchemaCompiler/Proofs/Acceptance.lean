import SchemaCompiler.Document
import Mathlib.Data.List.Forall2

/-!
Contract: which values are schema documents, and what is read from them.

Owns:
- `Keyword`, the keywords of a node, with the shape each one must have;
- `SchemaNode.ofKeywords`, the node of well-shaped keywords, and
  `SchemaNode.ofJson_eq_ofKeywords`, by which a malformed keyword is read as an
  absent one;
- `Document.Framed`, the shape of a document's frame, and
  `Document.accepted_iff_framed`, by which nothing inside a schema can reject
  the document it stands in.

Does not own: the text a value is read from.
-/

namespace SchemaCompiler

/-- Values that stand for a schema: mappings, and sequences that are no longer
than a node has keywords. -/
def Json.isSchema (value : Json) : Bool :=
  value.isRecord SchemaNode.width

/-- The schema of a value that stands for one. -/
def Schema.ofRecord (value : Json) : Schema :=
  match Reference.ofJson? value with
  | some target => .reference target
  | none => .inline (SchemaNode.ofJson value)

/-- A reference is always read from a value that stands for a schema. -/
theorem Reference.isSchema_of_ofJson? {value : Json} {target : Reference}
    (read : Reference.ofJson? value = some target) : value.isSchema = true := by
  cases value with
  | object entries => rfl
  | array items =>
      obtain _ | ⟨first, _ | ⟨second, rest⟩⟩ := items
      · simp [Reference.ofJson?] at read
      · simp [Json.isSchema, Json.isRecord, SchemaNode.width]
      · simp [Reference.ofJson?] at read
  | null => simp [Reference.ofJson?] at read
  | bool flag => simp [Reference.ofJson?] at read
  | number numeral => simp [Reference.ofJson?] at read
  | string text => simp [Reference.ofJson?] at read

/-- The values read as a reference: mappings whose `$ref` is text, and
sequences of exactly one text. -/
theorem Reference.ofJson?_eq_some_iff (value : Json) (pointer : String) :
    Reference.ofJson? value = some ⟨pointer⟩ ↔
      value.field? "$ref" = some (.string pointer) ∨ value = .array [.string pointer] := by
  cases value with
  | object entries =>
      simp only [Reference.ofJson?, Json.field?, Option.map_eq_some_iff, Option.bind_eq_some_iff,
        Reference.mk.injEq, exists_eq_right, reduceCtorEq, or_false]
      constructor
      · rintro ⟨written, found, asText⟩
        cases written <;> simp_all [Json.asString?]
      · intro found
        exact ⟨_, found, rfl⟩
  | array items =>
      obtain _ | ⟨first, _ | ⟨second, rest⟩⟩ := items
      · simp [Reference.ofJson?, Json.field?]
      · cases first <;> simp [Reference.ofJson?, Json.field?]
      · simp [Reference.ofJson?, Json.field?]
  | null => simp [Reference.ofJson?, Json.field?]
  | bool flag => simp [Reference.ofJson?, Json.field?]
  | number numeral => simp [Reference.ofJson?, Json.field?]
  | string text => simp [Reference.ofJson?, Json.field?]

namespace Schema

theorem ofJson?_eq (value : Json) :
    ofJson? value = if value.isSchema then some (ofRecord value) else none := by
  rw [ofJson?, ofRecord]
  cases read : Reference.ofJson? value with
  | some target => simp [Reference.isSchema_of_ofJson? read]
  | none => rfl

theorem ofItems?_eq (items : List Json) :
    ofItems? items = if items.all Json.isSchema then some (items.map ofRecord) else none := by
  induction items with
  | nil => rw [ofItems?]; rfl
  | cons item rest inductionHypothesis =>
      rw [ofItems?, ofJson?_eq, inductionHypothesis, List.all_cons, List.map_cons]
      cases item.isSchema <;> cases rest.all Json.isSchema <;> rfl

theorem ofEntries?_eq (entries : Entries Json) :
    ofEntries? entries =
      if entries.all fun entry => entry.2.isSchema then
        some (entries.map fun entry => (entry.1, ofRecord entry.2))
      else none := by
  induction entries with
  | nil => rw [ofEntries?]; rfl
  | cons entry rest inductionHypothesis =>
      obtain ⟨name, value⟩ := entry
      rw [ofEntries?, ofJson?_eq, inductionHypothesis, List.all_cons, List.map_cons]
      cases value.isSchema <;> cases rest.all fun entry => entry.2.isSchema <;> rfl

theorem ofRecord_eq_reference_iff (value : Json) (pointer : String) :
    ofRecord value = .reference ⟨pointer⟩ ↔
      value.field? "$ref" = some (.string pointer) ∨ value = .array [.string pointer] := by
  rw [← Reference.ofJson?_eq_some_iff, ofRecord]
  cases Reference.ofJson? value <;> simp

theorem ofRecord_eq_inline {value : Json} {node : SchemaNode}
    (read : ofRecord value = .inline node) : node = SchemaNode.ofJson value := by
  rw [ofRecord] at read
  split at read
  · cases read
  · exact (Schema.inline.inj read).symm

end Schema

/-- The keywords of a node. -/
inductive Keyword where
  | type
  | title
  | description
  | properties
  | required
  | items
  | additionalProperties
  | enumValues
  | enumNames
  | default
  | allOf
  | anyOf
  | oneOf
deriving DecidableEq, Repr

namespace Keyword

/-- The key of a keyword in a mapping. -/
def key : Keyword → String
  | .type => "type"
  | .title => "title"
  | .description => "description"
  | .properties => "properties"
  | .required => "required"
  | .items => "items"
  | .additionalProperties => "additionalProperties"
  | .enumValues => "enum"
  | .enumNames => "x-enumNames"
  | .default => "default"
  | .allOf => "allOf"
  | .anyOf => "anyOf"
  | .oneOf => "oneOf"

/-- The place of a keyword in a sequence. -/
def position : Keyword → Nat
  | .type => 0
  | .title => 1
  | .description => 2
  | .properties => 3
  | .required => 4
  | .items => 5
  | .additionalProperties => 6
  | .enumValues => 7
  | .enumNames => 8
  | .default => 9
  | .allOf => 10
  | .anyOf => 11
  | .oneOf => 12

/-- What a node gives under a keyword. -/
def given? (keyword : Keyword) (node : Json) : Option Json :=
  node.member? keyword.key keyword.position

/-- A list of schemas. -/
def areSchemas : Json → Bool
  | .array elements => elements.all Json.isSchema
  | _ => false

/-- True for the values that a keyword can be read from. -/
def isShaped : Keyword → Json → Bool
  | .type, .string _ | .type, .array _ => true
  | .title, value | .description, value => value.isScalar
  | .properties, .object entries => entries.all fun entry => entry.2.isSchema
  | .required, .array elements => elements.all fun element => element.asString?.isSome
  | .items, .array (first :: _) => first.isSchema
  | .items, .object _ => true
  | .additionalProperties, .bool _ => true
  | .additionalProperties, value => value.isSchema
  | .enumValues, .array _ | .enumNames, .array _ => true
  | .default, value => !value.isNull
  | .allOf, value | .anyOf, value | .oneOf, value => areSchemas value
  | _, _ => false

/-- What a node gives under a keyword, when it can be read. -/
def shaped? (keyword : Keyword) (node : Json) : Option Json :=
  (keyword.given? node).filter keyword.isShaped

end Keyword

namespace SchemaNode

/-- The schemas of a mapping of schemas. -/
def propertiesIn (value : Json) : List (String × Schema) :=
  match value with
  | .object entries => entries.map fun entry => (entry.1, Schema.ofRecord entry.2)
  | _ => []

/-- The item schema: a schema, or the first of a list of them. -/
def itemIn (value : Json) : Schema :=
  match value with
  | .array (first :: _) => Schema.ofRecord first
  | other => Schema.ofRecord other

def policyIn (value : Json) : AdditionalProperties :=
  match value with
  | .bool allowed => .freeForm allowed
  | other => .schema (Schema.ofRecord other)

def textsIn (value : Json) : List String :=
  (itemsOf value).filterMap Json.asString?

def schemasIn (value : Json) : List Schema :=
  (itemsOf value).map Schema.ofRecord

/-- The node of keywords that can all be read. -/
def ofKeywords (given : Keyword → Option Json) : SchemaNode :=
  { type := (given .type).bind typeOf?
    title := (given .title).map Json.scalarText
    description := (given .description).map Json.scalarText
    properties := ((given .properties).map propertiesIn).getD []
    required := ((given .required).map textsIn).getD []
    items := (given .items).map itemIn
    additionalProperties := (given .additionalProperties).map policyIn
    enumValues := ((given .enumValues).map itemsOf).getD []
    enumNames := (((given .enumNames).map itemsOf).getD []).map Json.scalarText
    default := given .default
    allOf := ((given .allOf).map schemasIn).getD []
    anyOf := ((given .anyOf).map schemasIn).getD []
    oneOf := ((given .oneOf).map schemasIn).getD [] }

/-- A list of texts is read as those texts, any other list as none. -/
theorem mapM_asString? (elements : List Json) :
    elements.mapM Json.asString? =
      if elements.all fun element => element.asString?.isSome then
        some (elements.filterMap Json.asString?)
      else none := by
  induction elements with
  | nil => rfl
  | cons element rest inductionHypothesis =>
      rw [List.mapM_cons, inductionHypothesis, List.all_cons, List.filterMap_cons]
      cases element.asString? <;>
        cases rest.all fun element => element.asString?.isSome <;> rfl

/-- The schemas of a keyword that holds a list are those of the list, when
every element is one, and none otherwise. -/
theorem schemas_read (elements : List Json) :
    (Schema.ofItems? elements).getD [] =
      (((some (Json.array elements)).filter Keyword.areSchemas).map schemasIn).getD [] := by
  rw [Schema.ofItems?_eq, Option.filter_some, Keyword.areSchemas]
  cases elements.all Json.isSchema <;> rfl

theorem properties_read (entries : Entries Json) :
    (Schema.ofEntries? entries).getD [] =
      (((some (Json.object entries)).filter Keyword.properties.isShaped).map propertiesIn).getD
        [] := by
  rw [Schema.ofEntries?_eq, Option.filter_some, Keyword.isShaped]
  cases entries.all fun entry => entry.2.isSchema <;> rfl

theorem required_read (elements : List Json) :
    namesOf (.array elements) =
      (((some (Json.array elements)).filter Keyword.required.isShaped).map textsIn).getD [] := by
  rw [namesOf, mapM_asString?, Option.filter_some, Keyword.isShaped]
  split <;> rfl

/-- A keyword that holds one schema is read as that schema, if it is one. -/
theorem schema_read (value : Json) :
    Schema.ofJson? value = ((some value).filter Json.isSchema).map Schema.ofRecord := by
  rw [Schema.ofJson?_eq, Option.filter_some]
  split <;> rfl

theorem policy_read {policy : Json} (noFlag : policy.asBool? = none) :
    (Schema.ofJson? policy).map AdditionalProperties.schema =
      ((some policy).filter Keyword.additionalProperties.isShaped).map policyIn := by
  have shape : Keyword.additionalProperties.isShaped policy = policy.isSchema := by
    cases policy <;> first | rfl | cases noFlag
  have reading : policyIn policy = .schema (Schema.ofRecord policy) := by
    cases policy <;> first | rfl | cases noFlag
  rw [Schema.ofJson?_eq, Option.filter_some, shape]
  cases policy.isSchema
  · rfl
  · simp only [if_true, Option.map_some, reading]

/-- A node is read keyword by keyword, and a malformed keyword is read as an
absent one. -/
theorem ofJson_eq_ofKeywords (value : Json) :
    ofJson value = ofKeywords fun keyword => keyword.shaped? value := by
  rw [ofJson, ofKeywords]
  simp only [Keyword.shaped?, Keyword.given?, Keyword.key, Keyword.position]
  -- One goal for each keyword; the shape of what stands under it decides.
  congr 1
  case e_type => rcases value.member? "type" 0 with _ | _ | _ | _ | _ | _ | _ <;> rfl
  case e_title => rcases value.member? "title" 1 with _ | _ | _ | _ | _ | _ | _ <;> rfl
  case e_description =>
    rcases value.member? "description" 2 with _ | _ | _ | _ | _ | _ | _ <;> rfl
  case e_properties =>
    generalize value.member? "properties" 3 = given
    rcases given with _ | _ | _ | _ | _ | _ | entries
    case some.object => exact properties_read entries
    all_goals rfl
  case e_required =>
    rcases value.member? "required" 4 with _ | _ | _ | _ | _ | elements | _
    case some.array => exact required_read elements
    all_goals rfl
  case e_items =>
    generalize value.member? "items" 5 = given
    rcases given with _ | _ | _ | _ | _ | (_ | ⟨first, rest⟩) | entries
    case some.array.cons =>
      refine (schema_read first).trans ?_
      rw [Option.filter_some, Option.filter_some, Keyword.isShaped]
      split <;> rfl
    case some.object => exact schema_read (.object entries)
    all_goals rfl
  case e_additionalProperties =>
    generalize value.member? "additionalProperties" 6 = given
    rcases given with _ | policy
    case none => rfl
    case some =>
      cases policy
      case bool => rfl
      all_goals exact policy_read rfl
  case e_enumValues => rcases value.member? "enum" 7 with _ | _ | _ | _ | _ | _ | _ <;> rfl
  case e_enumNames =>
    rcases value.member? "x-enumNames" 8 with _ | _ | _ | _ | _ | _ | _ <;> rfl
  case e_default => rcases value.member? "default" 9 with _ | _ | _ | _ | _ | _ | _ <;> rfl
  case e_allOf =>
    generalize value.member? "allOf" 10 = given
    rcases given with _ | _ | _ | _ | _ | elements | _
    case some.array => exact schemas_read elements
    all_goals rfl
  case e_anyOf =>
    generalize value.member? "anyOf" 11 = given
    rcases given with _ | _ | _ | _ | _ | elements | _
    case some.array => exact schemas_read elements
    all_goals rfl
  case e_oneOf =>
    generalize value.member? "oneOf" 12 = given
    rcases given with _ | _ | _ | _ | _ | elements | _
    case some.array => exact schemas_read elements
    all_goals rfl

end SchemaNode

namespace Document

/-- What a frame holds under `components`: a record whose `schemas`, if any, are
a mapping of records. -/
structure ComponentsFramed (components : Json) : Prop where
  record : components.isRecord 1 = true
  schemas : ∀ schemas, components.member? "schemas" 0 = some schemas →
    ∃ entries, schemas = .object entries ∧ ∀ entry ∈ entries, entry.2.isRecord 13 = true

/-- The shape of a document's frame: what must hold of a value, outside its
schemas, for it to be a document. -/
structure Framed (value : Json) : Prop where
  root : (∃ entries, value = .object entries) ∨
    ∃ elements, value = .array elements ∧ 1 ≤ elements.length ∧ elements.length ≤ 3
  info : ∀ info, value.member? "info" 1 = some info → info.isRecord 2 = true
  components : ∀ components, value.member? "components" 2 = some components →
    components = .null ∨ ComponentsFramed components

/-- The named values that stand under `schemas`. -/
def declaredIn (components : Json) : Entries Json :=
  match components.member? "schemas" 0 with
  | some (.object entries) => entries
  | _ => []

/-- The named values that a document's frame holds. -/
def declared (value : Json) : Entries Json :=
  ((value.member? "components" 2).map declaredIn).getD []

/-- The metadata read from what a frame holds under `info`. -/
def infoIn? : Option Json → Option DocumentInfo
  | none => some {}
  | some info => DocumentInfo.ofJson? info

/-- The schemas read from what a frame holds under `components`. -/
def schemasIn? : Option Json → Option (List (String × Schema))
  | none | some .null => some []
  | some components => schemasOf? components

theorem ofHeaded?_eq (value : Json) :
    ofHeaded? value =
      if value.isRecord 3 = true ∧ (value.member? "openapi" 0).isSome = true then
        (infoIn? (value.member? "info" 1)).bind fun info =>
          (schemasIn? (value.member? "components" 2)).bind fun schemas => some ⟨info, schemas⟩
      else none := by
  rw [ofHeaded?]
  cases value.isRecord 3 with
  | false => rfl
  | true =>
      rcases value.member? "openapi" 0 with _ | marker
      · rfl
      · rcases value.member? "info" 1 with _ | info <;>
          rcases value.member? "components" 2 with _ | _ | _ | _ | _ | _ | _ <;> rfl

/-- The header of a fragment leaves every other key as it is. -/
theorem member?_withHeader (value : Json) {key : String} (position : Nat)
    (notMarker : key ≠ "openapi") (notInfo : key ≠ "info") :
    (withHeader value).member? key position = value.member? key position := by
  cases value with
  | object entries =>
      simp only [withHeader]
      split
      · rfl
      · split <;>
          simp only [Json.member?, Entries.find?_insert, Ne.symm notMarker, Ne.symm notInfo,
            if_false]
  | _ => rfl

/-- The header of a fragment brings metadata only where there is none, and its
own is well shaped. -/
theorem info_withHeader (value : Json) :
    (withHeader value).member? "info" 1 = value.member? "info" 1 ∨
      value.member? "info" 1 = none ∧
        ∃ entries, (withHeader value).member? "info" 1 = some (.object entries) := by
  cases value with
  | object entries =>
      simp only [withHeader]
      split
      · exact Or.inl rfl
      · split
        · exact Or.inl (by simp [Json.member?, Entries.find?_insert])
        · rename_i absent
          refine Or.inr ⟨?_, _, (Entries.find?_insert _ _ _ _).trans (if_pos rfl)⟩
          rw [← Entries.isSome_find?, Entries.find?_insert, if_neg (by decide)] at absent
          simpa [Json.member?] using absent
  | _ => exact Or.inl rfl

/-- A mapping has its marker, if only that of a fragment; a sequence has to
bring one. -/
theorem rooted_withHeader (value : Json) :
    ((withHeader value).isRecord 3 = true ∧
        ((withHeader value).member? "openapi" 0).isSome = true) ↔
      (∃ entries, value = .object entries) ∨
        ∃ elements, value = .array elements ∧ 1 ≤ elements.length ∧ elements.length ≤ 3 := by
  cases value with
  | object entries =>
      simp only [withHeader]
      split
      · rename_i marked
        simpa [Json.isRecord, Json.member?, Entries.isSome_find?] using marked
      · split <;> simp [Json.isRecord, Json.member?, Entries.find?_insert]
  | array elements => cases elements <;> simp [withHeader, Json.isRecord, Json.member?]
  | _ => simp [withHeader, Json.isRecord]

/-- The metadata can be read when what the value itself holds under `info`, if
anything, is a record. -/
theorem isSome_infoIn?_withHeader (value : Json) :
    (infoIn? ((withHeader value).member? "info" 1)).isSome = true ↔
      ∀ info, value.member? "info" 1 = some info → info.isRecord 2 = true := by
  rcases info_withHeader value with same | ⟨absent, entries, added⟩
  · rw [same]
    cases value.member? "info" 1 with
    | none => simp [infoIn?]
    | some info => simp [infoIn?, DocumentInfo.ofJson?]
  · rw [absent, added]
    exact iff_of_true rfl (by simp)

theorem schemasOf?_eq_some_iff {components : Json} {schemas : List (String × Schema)} :
    schemasOf? components = some schemas ↔
      ComponentsFramed components ∧
        schemas = (declaredIn components).map fun entry => (entry.1, Schema.ofRecord entry.2) := by
  constructor
  · intro read
    rw [schemasOf?] at read
    split at read
    · rename_i record
      split at read
      · rename_i absent
        refine ⟨⟨record, by simp [absent]⟩, ?_⟩
        rw [declaredIn, absent, ← Option.some.inj read]
        rfl
      · rename_i entries found
        rw [Schema.ofEntries?_eq] at read
        split at read
        · rename_i shaped
          refine ⟨⟨record, fun schemas under => ?_⟩, ?_⟩
          · rw [found, Option.some.injEq] at under
            exact ⟨entries, under.symm, List.all_eq_true.1 shaped⟩
          · rw [declaredIn, found, Option.some.inj read]
        · cases read
      · cases read
    · cases read
  · rintro ⟨⟨record, framed⟩, rfl⟩
    rw [schemasOf?, if_pos record, declaredIn]
    cases found : components.member? "schemas" 0 with
    | none => rfl
    | some under =>
        obtain ⟨entries, rfl, shaped⟩ := framed under found
        exact (Schema.ofEntries?_eq entries).trans (if_pos (List.all_eq_true.2 shaped))

theorem schemasIn?_eq_some_iff {given : Option Json} {schemas : List (String × Schema)} :
    schemasIn? given = some schemas ↔
      (∀ components, given = some components →
        components = .null ∨ ComponentsFramed components) ∧
        schemas = ((given.map declaredIn).getD []).map
          fun entry => (entry.1, Schema.ofRecord entry.2) := by
  rcases given with _ | components
  · simp [schemasIn?, eq_comm]
  · simp only [Option.some.injEq, forall_eq', Option.map_some, Option.getD_some]
    by_cases isNull : components = .null
    · subst isNull
      simp [schemasIn?, declaredIn, Json.member?, eq_comm]
    · have read : schemasIn? (some components) = schemasOf? components := by
        cases components <;> first | rfl | exact absurd rfl isNull
      rw [read, schemasOf?_eq_some_iff]
      simp [isNull]

/-- What is read from a value that stands for a schema: a reference where it
can be one, and otherwise the node of its own keywords. -/
structure ReadFrom (value : Json) (schema : Schema) : Prop where
  reference : ∀ pointer, schema = .reference ⟨pointer⟩ ↔
    value.field? "$ref" = some (.string pointer) ∨ value = .array [.string pointer]
  inline : ∀ node, schema = .inline node →
    node = SchemaNode.ofKeywords fun keyword => keyword.shaped? value

theorem readFrom_ofRecord (value : Json) : ReadFrom value (Schema.ofRecord value) where
  reference := Schema.ofRecord_eq_reference_iff value
  inline _ read :=
    (Schema.ofRecord_eq_inline read).trans (SchemaNode.ofJson_eq_ofKeywords value)

theorem ofJson?_eq_some_iff {value : Json} {document : Document} :
    ofJson? value = some document ↔
      Framed value ∧ infoIn? ((withHeader value).member? "info" 1) = some document.info ∧
        document.schemas =
          (declared value).map fun entry => (entry.1, Schema.ofRecord entry.2) := by
  obtain ⟨info, schemas⟩ := document
  have parts : ofJson? value = some ⟨info, schemas⟩ ↔
      ((withHeader value).isRecord 3 = true ∧
        ((withHeader value).member? "openapi" 0).isSome = true) ∧
          infoIn? ((withHeader value).member? "info" 1) = some info ∧
            schemasIn? ((withHeader value).member? "components" 2) = some schemas := by
    rw [ofJson?, ofHeaded?_eq]
    split
    · rename_i rooted
      simp [rooted, Option.bind_eq_some_iff]
    · rename_i unrooted
      simp [unrooted]
  rw [parts, rooted_withHeader, member?_withHeader value 2 (by decide) (by decide),
    schemasIn?_eq_some_iff]
  constructor
  · rintro ⟨root, infoRead, components, read⟩
    have shaped := (isSome_infoIn?_withHeader value).1 (Option.isSome_of_eq_some infoRead)
    exact ⟨⟨root, shaped, components⟩, infoRead, read⟩
  · rintro ⟨framed, infoRead, read⟩
    exact ⟨framed.root, infoRead, framed.components, read⟩

/-- A document is accepted exactly when its frame is well shaped, whatever
stands inside its schemas. Its schemas are those the frame holds, in order,
each one read from its own value. -/
theorem accepted_iff_framed (value : Json) :
    ((ofJson? value).isSome = true ↔ Framed value) ∧
      ∀ document, ofJson? value = some document →
        List.Forall₂ (fun given schema => schema.1 = given.1 ∧ ReadFrom given.2 schema.2)
          (declared value) document.schemas := by
  refine ⟨⟨?accepted, ?framed⟩, ?schemas⟩
  case accepted =>
    intro accepted
    obtain ⟨document, read⟩ := Option.isSome_iff_exists.1 accepted
    exact (ofJson?_eq_some_iff.1 read).1
  case framed =>
    intro framed
    obtain ⟨info, read⟩ :=
      Option.isSome_iff_exists.1 ((isSome_infoIn?_withHeader value).2 framed.info)
    let schemas := (declared value).map fun entry => (entry.1, Schema.ofRecord entry.2)
    have accepted : ofJson? value = some ⟨info, schemas⟩ :=
      ofJson?_eq_some_iff.2 ⟨framed, read, rfl⟩
    exact Option.isSome_of_eq_some accepted
  case schemas =>
    intro document accepted
    rw [(ofJson?_eq_some_iff.1 accepted).2.2, List.forall₂_map_right_iff, List.forall₂_same]
    intro given _
    exact ⟨rfl, readFrom_ofRecord given.2⟩

/-- A schema with two malformed keywords, and a reference given as a sequence. -/
def looseSchemas : Entries Json :=
  [("Odd", .object [("type", .string "string"), ("enum", .number (.integer 7)),
      ("description", .array [.string "x"])]),
   ("Fine", .array [.string "#/components/schemas/Odd"])]

def looseDocument : Json :=
  .object [("components", .object [("schemas", .object looseSchemas)])]

theorem framed_looseDocument : Framed looseDocument where
  root := Or.inl ⟨_, rfl⟩
  info := by rintro _ ⟨⟩
  components := by
    rintro _ ⟨⟩
    exact Or.inr ⟨rfl, by rintro _ ⟨⟩; exact ⟨looseSchemas, rfl, by decide⟩⟩

/-- The malformed keywords are lost, and nothing else. -/
theorem accepted_looseDocument :
    ∃ document, ofJson? looseDocument = some document ∧
      document.schemas = [("Odd", .inline { type := some .string }),
        ("Fine", .reference ⟨"#/components/schemas/Odd"⟩)] := by
  obtain ⟨accepted, schemasRead⟩ := accepted_iff_framed looseDocument
  obtain ⟨⟨info, schemas⟩, read⟩ := Option.isSome_iff_exists.1 (accepted.2 framed_looseDocument)
  have declaredRead : List.Forall₂ _ looseSchemas schemas := schemasRead _ read
  obtain _ |
      @⟨_, ⟨_, odd⟩, _, _, ⟨rfl, oddRead⟩, _ | @⟨_, ⟨_, fine⟩, _, _, ⟨rfl, fineRead⟩, _ | _⟩⟩ :=
    declaredRead
  refine ⟨_, read, ?_⟩
  have fineIs : fine = .reference ⟨"#/components/schemas/Odd"⟩ :=
    (fineRead.reference _).2 (Or.inr rfl)
  have oddIs : odd = .inline { type := some .string } := by
    cases odd with
    | reference target => simpa [Json.field?, Entries.find?] using (oddRead.reference _).1 rfl
    | inline node => exact congrArg Schema.inline (oddRead.inline node rfl)
  rw [fineIs, oddIs]

end Document

end SchemaCompiler
