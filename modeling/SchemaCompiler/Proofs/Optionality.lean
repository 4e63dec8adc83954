import SchemaCompiler.Model
import SchemaCompiler.Proofs.Flattening
import SchemaCompiler.Proofs.Sharing

/-!
Contract: the optional flag, the tag and the type of every generated field.

Owns:
- `TypeExpr.Plain`, the types made from schemas alone, which have no optional
  layer at any depth: typing a schema or a property gives no other;
- `FieldDefinition.Layered`, the invariant of fields under construction: the
  type is a plain one, made optional exactly when the flag is set. A further
  occurrence of a property changes no more than the flag (`merged_eq`), so it keeps
  the invariant (`layered_merged`), and with that flattening does
  (`keptByFlattening_layered`);
- `FieldDefinition.Consistent`, what the invariant says about the parts of a
  field, and the same for whole models.

Does not own: which properties are optional.
-/

namespace SchemaCompiler

/-! ## Plain types -/

namespace TypeExpr

/-- A type without an optional layer and without a text taken from a manifest,
at any depth. -/
def Plain : TypeExpr → Prop
  | .sequence element => element.Plain
  | .map value => value.Plain
  | .optional _ | .verbatim _ => False
  | _ => True

/-- The types directly below the outermost layer. -/
def parts : TypeExpr → List TypeExpr
  | .sequence element => [element]
  | .map value => [value]
  | .optional base => [base]
  | _ => []

theorem Plain.of_mem_parts {type part : TypeExpr} (plain : type.Plain)
    (member : part ∈ type.parts) : part.Plain := by
  cases type with
  | sequence element => exact List.mem_singleton.1 member ▸ plain
  | map value => exact List.mem_singleton.1 member ▸ plain
  | optional base => exact plain.elim
  | _ => cases member

/-- What a plain type mentions stands below a sequence or a map, unless the type
is that name itself. -/
theorem Plain.exists_part_of_mem_namedLeaves {type : TypeExpr} {leaf : String}
    (plain : type.Plain) (built : type ≠ .named leaf) (mentioned : leaf ∈ type.namedLeaves) :
    ∃ part, (type = .sequence part ∨ type = .map part) ∧ leaf ∈ part.namedLeaves := by
  cases type with
  | sequence element => exact ⟨element, Or.inl rfl, mentioned⟩
  | map value => exact ⟨value, Or.inr rfl, mentioned⟩
  | named name =>
      have same : leaf = name := List.mem_singleton.1 mentioned
      exact absurd (congrArg TypeExpr.named same.symm) built
  | optional base => exact plain.elim
  | _ => cases mentioned

/-- Only collections take no optional layer. -/
theorem Plain.makeOptional_cases {type : TypeExpr} (plain : type.Plain) :
    (type.makeOptional = .optional type ∧
        ∀ part, type ≠ .optional part ∧ type ≠ .sequence part ∧ type ≠ .map part) ∨
      (type.makeOptional = type ∧ ∃ part, type = .sequence part ∨ type = .map part) := by
  cases type with
  | sequence element => exact Or.inr ⟨rfl, element, Or.inl rfl⟩
  | map value => exact Or.inr ⟨rfl, value, Or.inr rfl⟩
  | optional base => exact plain.elim
  | verbatim text => exact plain.elim
  | _ => exact Or.inl ⟨rfl, by simp⟩

theorem Plain.stripOptional_eq {type : TypeExpr} (plain : type.Plain) :
    type.stripOptional = type := by
  cases type with
  | optional base => exact plain.elim
  | verbatim text => exact plain.elim
  | _ => rfl

theorem Plain.stripOptional_makeOptional {type : TypeExpr} (plain : type.Plain) :
    type.makeOptional.stripOptional = type := by
  rcases plain.makeOptional_cases with ⟨wrapped, -⟩ | ⟨same, -⟩
  · rw [wrapped]
    rfl
  · rw [same, plain.stripOptional_eq]

end TypeExpr

/-! ## Fields -/

namespace FieldDefinition

/-- The tag has the flag of the field, and the type is a plain one, made
optional when the flag is set. -/
def Layered (field : FieldDefinition) : Prop :=
  field.tag.optional = field.optional ∧
    ∃ base : TypeExpr, base.Plain ∧
      field.type = if field.optional then base.makeOptional else base

/-- The optional flag, the tag and the type of a field agree. -/
structure Consistent (field : FieldDefinition) : Prop where
  tagged : field.tag.optional = field.optional
  wrapped : field.optional = true →
    (∃ base, field.type = .optional base ∧
        ∀ part, base ≠ .optional part ∧ base ≠ .sequence part ∧ base ≠ .map part) ∨
      ∃ part, field.type = .sequence part ∨ field.type = .map part
  bare : field.optional = false → ∀ base, field.type ≠ .optional base
  below : ∀ part ∈ field.type.parts, part.Plain

theorem Layered.consistent {field : FieldDefinition} (layered : field.Layered) :
    field.Consistent := by
  obtain ⟨tagged, base, plain, shape⟩ := layered
  cases flag : field.optional with
  | false =>
      simp only [flag, Bool.false_eq_true, if_false] at shape
      refine ⟨by rw [tagged], by simp [flag], ?_, ?_⟩
      · intro _ other same
        rw [shape] at same
        exact (same ▸ plain : (TypeExpr.optional other).Plain)
      · rw [shape]
        exact fun part member => plain.of_mem_parts member
  | true =>
      simp only [flag, if_true] at shape
      rcases plain.makeOptional_cases with ⟨wrapped, single⟩ | ⟨same, collection⟩
      · refine ⟨by rw [tagged], fun _ => Or.inl ⟨base, shape.trans wrapped, single⟩,
          by simp [flag], ?_⟩
        rw [shape, wrapped]
        intro part member
        exact List.mem_singleton.1 member ▸ plain
      · rw [same] at shape
        refine ⟨by rw [tagged], fun _ => Or.inr ?_, by simp [flag], ?_⟩
        · rw [shape]
          exact collection
        · rw [shape]
          exact fun part member => plain.of_mem_parts member

end FieldDefinition

/-- The fields of a record are layered, and other shapes are over plain types. -/
def TypeDefinition.Layered (definition : TypeDefinition) : Prop :=
  match definition.shape with
  | .record fields => ∀ field ∈ fields, field.Layered
  | .alias target _ => target.Plain
  | .enumeration base _ => base.Plain

namespace FieldTable

def Layered (table : FieldTable) : Prop :=
  ∀ field ∈ table.values, field.Layered

variable {field : FieldDefinition} {base : TypeExpr}

/-- A required occurrence takes the optional layer away, and any other changes
nothing. -/
theorem merged_eq (plain : base.Plain)
    (shape : field.type = if field.optional then base.makeOptional else base)
    (property : String) (optional : Bool) :
    merged field property optional =
      { field with
        optional := field.optional && optional
        type := if field.optional && optional then base.makeOptional else base
        tag := ⟨property, field.optional && optional⟩ } := by
  simp only [merged, shape]
  cases field.optional <;> cases optional <;>
    simp [plain.stripOptional_eq, plain.stripOptional_makeOptional]

/-- An occurrence with the flag of the field changes nothing at all. -/
theorem merged_eq_self (plain : base.Plain)
    (shape : field.type = if field.optional then base.makeOptional else base) {property : String}
    (tagged : field.tag = ⟨property, field.optional⟩) :
    merged field property field.optional = field := by
  rw [merged_eq plain shape]
  simp only [Bool.and_self, ← shape, ← tagged]

theorem layered_merged (layered : field.Layered) (property : String) (optional : Bool) :
    (merged field property optional).Layered := by
  obtain ⟨-, base, plain, shape⟩ := layered
  rw [merged_eq plain shape]
  exact ⟨rfl, base, plain, rfl⟩

end FieldTable

/-! ## Types of schemas -/

theorem TypeExpr.plain_of_mem_builtin {type : TypeExpr} (listed : type ∈ builtin) :
    type.Plain := by
  simp only [builtin, List.mem_cons, List.not_mem_nil, or_false] at listed
  rcases listed with rfl | rfl | rfl | rfl | rfl | rfl | rfl | rfl <;> trivial

theorem SchemaNode.layered_of_enumeration {name : String} {node : SchemaNode}
    {definition : TypeDefinition} (found : node.enumeration? name = some definition) :
    definition.Layered := by
  obtain ⟨-, -, rfl⟩ := enumeration?_eq_some_iff.1 found
  exact TypeExpr.plain_of_mem_builtin (literalBase_mem_builtin node.type)

namespace SchemaIndex

variable {index : SchemaIndex} {trail : List String}

theorem typeOf_plain {allowUnion : Bool} {schema : Schema} {type : TypeExpr}
    (typed : index.typeOf trail allowUnion schema = .ok type) : type.Plain := by
  fun_induction typeOf index trail allowUnion schema generalizing type with
  | case1 =>
      cases typed
      trivial
  | case2 trail allowUnion target name node found settled =>
      rename_i shape
      cases typed
      rcases SchemaNode.targetOutline_cases shape with named | builtin
      · rw [named]
        trivial
      · exact TypeExpr.plain_of_mem_builtin builtin
  | case3 => cases typed
  | case4 trail allowUnion target name node found element shape fresh smaller =>
      rename_i inductionHypothesis
      obtain ⟨inner, inside, rfl⟩ := exists_of_map_eq_ok typed
      have plain : inner.Plain := inductionHypothesis inside
      exact plain
  | case5 trail allowUnion node settled shape =>
      cases typed
      exact TypeExpr.plain_of_mem_builtin (SchemaNode.mem_builtin_of_outline shape)
  | case6 trail allowUnion node member shape _ inductionHypothesis =>
      exact inductionHypothesis typed
  | case7 trail allowUnion node element shape _ inductionHypothesis =>
      obtain ⟨inner, inside, rfl⟩ := exists_of_map_eq_ok typed
      have plain : inner.Plain := inductionHypothesis inside
      exact plain
  | case8 trail allowUnion node value shape _ inductionHypothesis =>
      obtain ⟨inner, inside, rfl⟩ := exists_of_map_eq_ok typed
      have plain : inner.Plain := inductionHypothesis inside
      exact plain

theorem mapAlias_plain {node : SchemaNode} {target : TypeExpr}
    (aliased : index.mapAlias trail node = .ok (some target)) : target.Plain := by
  unfold mapAlias at aliased
  split at aliased
  · split at aliased
    · obtain ⟨value, typed, same⟩ := exists_of_map_eq_ok aliased
      cases same
      exact (typeOf_plain typed : value.Plain)
    · cases aliased
      trivial
  · cases aliased

theorem unionFields_layered {node : SchemaNode} {fields : List FieldDefinition}
    (made : index.unionFields trail node = .ok fields) : ∀ field ∈ fields, field.Layered := by
  intro field member
  obtain ⟨variant, -, built⟩ := exists_of_mem_mapM_ok made field member
  obtain ⟨type, typed, rfl⟩ := exists_of_map_eq_ok built
  exact ⟨rfl, type, typeOf_plain typed, rfl⟩

theorem unionDefinition_layered {name : String} {node : SchemaNode} {definition : TypeDefinition}
    (built : index.unionDefinition trail name node = .ok definition) : definition.Layered := by
  obtain ⟨fields, made, rfl⟩ := exists_of_map_eq_ok built
  exact unionFields_layered made

/-! ## Records -/

open Minting

theorem exists_of_yields_map {α β : Type} {function : α → β} {computation : Minting α} {value : β}
    (yields : Yields (function <$> computation) value) : ∃ first, function first = value := by
  rw [map_eq_pure_bind] at yields
  obtain ⟨first, -, rest⟩ := yields.of_bind
  exact ⟨first, eq_of_yields_pure rest⟩

/-- A helper type is mentioned by name, so the type of a property is plain
whatever its helper type is. -/
theorem propertyType_plain {parent property : String} {schema : Schema} {type : TypeExpr}
    (yields : Yields (index.propertyType trail parent property schema) type) : type.Plain := by
  have helper : ∀ computation : Minting String,
      Yields (TypeExpr.named <$> computation) type → type.Plain := by
    intro computation named
    obtain ⟨name, rfl⟩ := exists_of_yields_map named
    trivial
  cases schema with
  | reference target =>
      rw [propertyType] at yields
      exact typeOf_plain (eq_of_yields_ofExcept yields)
  | inline node =>
      rw [propertyType] at yields
      split at yields
      · exact typeOf_plain (eq_of_yields_ofExcept yields)
      · simp only at yields
        split at yields
        · exact helper _ yields
        · split at yields
          · obtain ⟨definition, -, rest⟩ := yields.of_bind
            exact helper _ rest
          · split at yields
            · obtain ⟨definition, -, rest⟩ := yields.of_bind
              exact helper _ rest
            · exact typeOf_plain (eq_of_yields_ofExcept yields)

/-- Flattening keeps a table layered. -/
theorem keptByFlattening_layered (index : SchemaIndex) (required : List String) :
    index.KeptByFlattening required fun _ table => table.Layered :=
  keptByFlattening_forall required
    (fun typed _ => ⟨rfl, _, propertyType_plain typed, rfl⟩)
    FieldTable.layered_merged unionFields_layered

/-- Whatever a node is built into is layered. -/
theorem Defines.layered {name : String} {node : SchemaNode} {definition : TypeDefinition}
    (defines : index.Defines trail name node definition) : definition.Layered := by
  cases defines with
  | enumeration found => exact SchemaNode.layered_of_enumeration found
  | mapping _ aliased => exact mapAlias_plain aliased
  | union _ built => exact unionDefinition_layered built
  | transparent _ _ _ typed | distinct _ _ _ typed => exact typeOf_plain typed
  | record _ _ _ contributed inherited =>
      have start : FieldTable.Layered {} := forall_mem_values_empty _
      exact (index.keptByFlattening_layered _).record start contributed inherited

/-! ## Models -/

theorem MintedBelow.layered {start : Site} {definition : TypeDefinition}
    (minted : index.MintedBelow start definition) : definition.Layered := by
  obtain ⟨property, reached, defined⟩ := minted
  exact defined.defines.layered

theorem layered_of_mem_synthesizeTypes {skip : List String} {definition : TypeDefinition}
    (generated : definition ∈ index.synthesizeTypes skip) : definition.Layered := by
  obtain ⟨name, node, -, ⟨own, -⟩ | helper⟩ := cases_of_mem_synthesizeTypes generated
  · exact own.layered
  · exact helper.layered

theorem plain_of_alias {skip : List String} {definition : TypeDefinition}
    (generated : definition ∈ index.synthesizeTypes skip) {target : TypeExpr} {distinct : Bool}
    (aliases : definition.shape = .alias target distinct) : target.Plain := by
  have layered := layered_of_mem_synthesizeTypes generated
  rw [TypeDefinition.Layered, aliases] at layered
  exact layered

/-- A field with an explicit type is as optional as its text says, and any
other field is made optional by its flag. -/
theorem isOptional_resourceField (resource : String) (direction : Direction)
    (field : FieldOverride) :
    (index.resourceField resource direction field).optional =
      (index.resourceField resource direction field).type.isOptional := by
  change isOptionalField field direction =
    (index.fieldType resource field (isOptionalField field direction)).isOptional
  unfold fieldType
  cases explicit : field.type with
  | some text =>
      simp only [isOptionalField, explicit]
      rfl
  | none =>
      simp only
      cases isOptionalField field direction <;> rfl

theorem consistent_of_mem_assembleResources {manifest : ControlManifest}
    {resource : ResourceDefinition} (assembled : resource ∈ index.assembleResources manifest) :
    ∀ field ∈ resource.fields,
      field.tag.optional = field.optional ∧ field.optional = field.type.isOptional := by
  obtain ⟨⟨name, spec⟩, -, rfl⟩ := List.mem_map.1 assembled
  intro field listed
  rcases List.mem_append.1 listed with input | output
  · obtain ⟨override, -, rfl⟩ := List.mem_map.1 input
    exact ⟨rfl, isOptional_resourceField name .input override⟩
  · obtain ⟨override, -, rfl⟩ := List.mem_map.1 output
    exact ⟨rfl, isOptional_resourceField name .output override⟩

/-- In every model the flag, the tag and the type of each record field agree,
no optional layer stands below the outermost one or in the target of an alias,
and the flag, the tag and the type of each resource field agree. -/
theorem compile_fields_consistent (index : SchemaIndex) (manifest : ControlManifest) :
    (∀ definition ∈ (index.compile manifest).types,
        (∀ field ∈ definition.fields, field.Consistent) ∧
          ∀ target distinct, definition.shape = .alias target distinct → target.Plain) ∧
      ∀ resource ∈ (index.compile manifest).resources, ∀ field ∈ resource.fields,
        field.tag.optional = field.optional ∧ field.optional = field.type.isOptional := by
  refine ⟨?_, fun resource assembled => consistent_of_mem_assembleResources assembled⟩
  intro definition generated
  refine ⟨?_, fun target distinct aliases => plain_of_alias generated aliases⟩
  have layered := layered_of_mem_synthesizeTypes generated
  unfold TypeDefinition.Layered at layered
  unfold TypeDefinition.fields
  match shape : definition.shape with
  | .record fields =>
      rw [shape] at layered
      exact fun field listed => (layered field listed).consistent
  | .alias _ _ | .enumeration _ _ => simp

/-! ## A merged record -/

/-- A record whose second parent requires a property of the first one. -/
def loadNode : SchemaNode :=
  { allOf := [
      .inline { properties := [
        ("zone", .inline { type := some .string }), ("size", .inline { type := some .integer })] },
      .inline { properties := [("zone", .inline { type := some .string })]
                required := ["zone"] }] }

def loadIndex : SchemaIndex where
  schemas := ⟨[("Load", .inline loadNode)], by decide⟩

def zoneField : FieldDefinition := .withoutNotes "zone" "Zone" .string false

def sizeField : FieldDefinition := .withoutNotes "size" "Size" (.optional .integer) true

theorem synthesizeTypes_loadIndex :
    loadIndex.synthesizeTypes [] = [.record "Load" none [zoneField, sizeField]] := by
  have built : loadIndex.buildAlone "Load" loadNode =
      .ok ⟨.record "Load" none [zoneField, sizeField], []⟩ := by
    unfold buildAlone
    simp only [Synthesizer.build, Synthesizer.namedDefinition, Synthesizer.start,
      recordDefinition, loadNode, contribution, properties, parents, propertyType,
      typeOf_primitive]
    rfl
  exact synthesizeTypes_of_only rfl rfl built

/-- The required occurrence takes the optional layer of one field away. -/
theorem compile_fields_consistent_load :
    (loadIndex.compile {}).types = [.record "Load" none [zoneField, sizeField]] ∧
      zoneField.Consistent ∧ sizeField.Consistent := by
  have types : (loadIndex.compile {}).types = _ := synthesizeTypes_loadIndex
  have consistent := (compile_fields_consistent loadIndex {}).1
  rw [types] at consistent
  have fields := (consistent _ List.mem_cons_self).1
  exact ⟨types, fields _ List.mem_cons_self, fields _ (List.mem_cons_of_mem _ List.mem_cons_self)⟩

end SchemaIndex

end SchemaCompiler
