import SchemaCompiler.Model
import SchemaCompiler.Proofs.Exporting
import SchemaCompiler.Proofs.Flattening
import SchemaCompiler.Proofs.Ownership

/-!
Contract: which generated names are valid identifiers.

Owns:
- `Naming.Identifier`, the valid identifiers, and what makes one of an exported
  name and of an enumeration constant;
- `MintedBelow.canonical_name`: a helper type of a run has a canonical name,
  also below a schema whose own name exports to nothing;
- `FieldDefinition.Exports`, the invariant of the identifiers of fields;
- `SchemaIndex.compile_identifiers`, for all the types of a model.

Companion names are taken over as they are written: a constant is an identifier
exactly when its companion has only letters and digits and the name in front of
it is an identifier. The exceptions are real ones
(`SchemaIndex.compile_names_not_identifiers`).

Does not own: the names of resources and of their fields.
-/

namespace SchemaCompiler

/-! ## Identifiers -/

namespace Naming

/-- A name of ASCII letters and digits that does not begin with a digit. -/
structure Identifier (name : String) : Prop where
  nonempty : name ≠ ""
  letters : ∀ character ∈ name.toList, character.isAlphanum = true
  start : ∀ character, name.toList.head? = some character → character.isDigit = false

variable {name ending : String}

theorem Canonical.identifier (canonical : Canonical name) : Identifier name := by
  have nonempty : name ≠ "" := canonical.ne_empty
  obtain ⟨first, rest, shape, upper, letters⟩ := canonical
  refine ⟨nonempty, ?_, ?_⟩
  · rw [shape]
    intro character member
    rcases List.mem_cons.1 member with isFirst | inRest
    · exact isFirst ▸ isAlphanum_of_isUpper upper
    · exact letters character inRest
  · rw [shape]
    rintro character ⟨⟩
    apply Bool.eq_false_iff.2
    intro digit
    rw [isUpper_iff] at upper
    rw [isDigit_iff] at digit
    omega

/-- A name with a letter or a digit is exported to something. -/
theorem exportedName_ne_empty (some : ∃ character ∈ name.toList, character.isAlphanum = true) :
    exportedName name ≠ "" := by
  obtain ⟨character, member, kept⟩ := some
  intro empty
  have dropped := exportedName_eq_empty_iff.1 empty character member
  rw [kept] at dropped
  cases dropped

theorem identifier_append_iff (named : name ≠ "") :
    Identifier (name ++ ending) ↔
      Identifier name ∧ ∀ character ∈ ending.toList, character.isAlphanum = true := by
  obtain ⟨first, rest, shape⟩ : ∃ first rest, name.toList = first :: rest := by
    cases characters : name.toList with
    | nil => exact absurd (String.toList_eq_nil_iff.1 characters) named
    | cons first rest => exact ⟨first, rest, rfl⟩
  have sameHead : (name ++ ending).toList.head? = name.toList.head? := by
    rw [String.toList_append, shape]
    rfl
  have mem : ∀ character, character ∈ (name ++ ending).toList ↔
      character ∈ name.toList ∨ character ∈ ending.toList := by
    intro character
    rw [String.toList_append, List.mem_append]
  constructor
  · rintro ⟨-, letters, start⟩
    rw [sameHead] at start
    exact ⟨⟨named, fun character member => letters character ((mem character).2 (Or.inl member)),
      start⟩, fun character member => letters character ((mem character).2 (Or.inr member))⟩
  · rintro ⟨⟨-, letters, start⟩, more⟩
    refine ⟨?_, ?_, sameHead ▸ start⟩
    · intro empty
      have none : (name ++ ending).toList.head? = none := by
        rw [empty]
        rfl
      rw [sameHead, shape] at none
      cases none
    · intro character member
      rcases (mem character).1 member with inName | inEnding
      · exact letters character inName
      · exact more character inEnding

/-- A constant is an identifier exactly when the name of its type is one and its
companion has only letters and digits, whether or not the companion begins with
the name of the type already. -/
theorem identifier_enumConstantName_iff {typeName companion : String} (named : typeName ≠ "") :
    Identifier (enumConstantName typeName companion) ↔
      Identifier typeName ∧ ∀ character ∈ companion.toList, character.isAlphanum = true := by
  unfold enumConstantName
  split
  · rename_i empty
    subst empty
    simp
  · split
    · rename_i begins
      obtain ⟨rest, shape⟩ := List.isPrefixOf_iff_prefix.1 begins
      have whole : companion = typeName ++ String.ofList rest := by
        apply String.toList_inj.1
        rw [String.toList_append, String.toList_ofList, shape]
      rw [whole, identifier_append_iff named, String.toList_append, String.toList_ofList]
      apply and_congr_right
      intro typed
      constructor
      · intro letters character member
        rcases List.mem_append.1 member with inType | inRest
        · exact typed.letters character inType
        · exact letters character inRest
      · exact fun letters character member => letters character (List.mem_append_right _ member)
    · exact identifier_append_iff named

/-- Numbering keeps to letters and digits. -/
theorem isAlphanum_of_mem_firstFree {taken : List String} {base : String}
    (letters : ∀ character ∈ base.toList, character.isAlphanum = true) :
    ∀ character ∈ (firstFree taken base).toList, character.isAlphanum = true := by
  by_cases found : base ∈ taken
  · obtain ⟨number, result, -⟩ := firstFree_eq found
    rw [result, numbered, String.toList_append]
    intro character member
    rcases List.mem_append.1 member with inBase | inNumber
    · exact letters character inBase
    · exact isAlphanum_of_mem_toString inNumber
  · rw [firstFree, if_neg found]
    exact letters

end Naming

/-! ## Helper types -/

namespace SchemaIndex

variable {index : SchemaIndex} {name : String} {node : SchemaNode}

/-- Where the empty name is reserved, a helper name is not empty. -/
theorem exportedName_helperName_ne_empty {parent : String} (property : String)
    (guarded : "" ∈ index.reservedNames ∨ Naming.exportedName parent ≠ "") :
    Naming.exportedName (index.helperName parent property) ≠ "" := by
  have letters : ∀ character ∈ (index.helperName parent property).toList,
      character.isAlphanum = true := by
    apply Naming.isAlphanum_of_mem_firstFree
    rw [Naming.helperName, String.toList_append]
    intro character member
    rcases List.mem_append.1 member with inParent | inProperty
    · exact Naming.isAlphanum_of_mem_exportedName inParent
    · exact Naming.isAlphanum_of_mem_exportedName inProperty
  have nonempty : index.helperName parent property ≠ "" := by
    rcases guarded with reserved | named
    · intro empty
      have free : index.helperName parent property ∉ index.reservedNames :=
        Naming.firstFree_not_mem index.reservedNames _
      exact free (empty ▸ reserved)
    · exact (index.canonical_helperName named property).ne_empty
  apply Naming.exportedName_ne_empty
  cases characters : (index.helperName parent property).toList with
  | nil => exact absurd (String.toList_eq_nil_iff.1 characters) nonempty
  | cons first rest =>
      rw [characters] at letters
      exact ⟨first, List.mem_cons_self, letters first List.mem_cons_self⟩

/-- Below a declared schema the helper types have canonical names: either the
schema exports to a name, or the empty name is reserved. -/
theorem MintedBelow.canonical_name (found : index.lookup name = some node)
    {helper : TypeDefinition} (minted : index.MintedBelow (.ofNamed name node) helper) :
    Naming.Canonical helper.name := by
  cases minted with
  | @intro trail parent inner property reached defined =>
      have guarded : "" ∈ index.reservedNames ∨ Naming.exportedName parent ≠ "" := by
        by_cases named : Naming.exportedName name = ""
        · have declared : name ∈ index.names := mem_names_of_lookup found
          exact Or.inl (named ▸ List.mem_map_of_mem declared)
        · exact Or.inr (reached.exportedName_parent named)
      have exported := exportedName_helperName_ne_empty property guarded
      rw [defined.defines.name_eq, SchemaNode.canonicalName_of_exportedName inner exported]
      exact Naming.canonical_exportedName exported

end SchemaIndex

/-! ## Fields -/

/-- The identifier of a field is canonical, or it is the exported name of the
field's own name. -/
def FieldDefinition.Exports (field : FieldDefinition) : Prop :=
  Naming.Canonical field.exportedName ∨ field.exportedName = Naming.exportedName field.name

theorem FieldDefinition.Exports.identifier {field : FieldDefinition} (exports : field.Exports)
    (named : field.exportedName ≠ "" ∨
      ∃ character ∈ field.name.toList, character.isAlphanum = true) :
    Naming.Identifier field.exportedName := by
  rcases exports with canonical | exported
  · exact canonical.identifier
  · have nonempty : Naming.exportedName field.name ≠ "" := by
      rcases named with nonempty | letter
      · exact exported ▸ nonempty
      · exact Naming.exportedName_ne_empty letter
    rw [exported]
    exact (Naming.canonical_exportedName nonempty).identifier

theorem Variant.canonical_identifierOf (position : Nat) (name : String) :
    Naming.Canonical (identifierOf position name) := by
  unfold identifierOf
  simp only
  split
  · have word : Naming.Canonical "Variant" :=
      ⟨'V', ['a', 'r', 'i', 'a', 'n', 't'], rfl, by decide, by simp⟩
    exact word.numbered (position + 1)
  · rename_i named
    exact Naming.canonical_exportedName named

theorem Variant.canonical_of_mem_named {taken : List String} {position : Nat}
    {members : List Schema} {variant : Variant} (listed : variant ∈ named taken position members) :
    Naming.Canonical variant.exportedName := by
  induction members generalizing taken position with
  | nil => cases listed
  | cons head tail inductionHypothesis =>
      rcases List.mem_cons.1 listed with isHead | inTail
      · rw [isHead]
        exact (canonical_identifierOf position _).firstFree taken
      · exact inductionHypothesis inTail

namespace SchemaIndex

variable {index : SchemaIndex} {trail : List String} {name : String} {node : SchemaNode}
  {definition : TypeDefinition}

theorem unionFields_exports {fields : List FieldDefinition}
    (made : index.unionFields trail node = .ok fields) : ∀ field ∈ fields, field.Exports := by
  intro field member
  obtain ⟨variant, listed, built⟩ := exists_of_mem_mapM_ok made field member
  obtain ⟨type, -, rfl⟩ := exists_of_map_eq_ok built
  exact Or.inl (Variant.canonical_of_mem_named (List.of_mem_zip listed).1)

theorem keptByFlattening_exports (index : SchemaIndex) (required : List String) :
    index.KeptByFlattening required fun _ table => ∀ field ∈ table.values, field.Exports :=
  keptByFlattening_forall required (fun _ _ => Or.inr rfl) (fun exports _ _ => exports)
    unionFields_exports

theorem Defines.exports (defines : index.Defines trail name node definition) :
    ∀ field ∈ definition.fields, field.Exports := by
  cases defines with
  | enumeration found =>
      obtain ⟨-, -, rfl⟩ := SchemaNode.enumeration?_eq_some_iff.1 found
      intro field member
      cases member
  | union _ built =>
      obtain ⟨fields, made, rfl⟩ := exists_of_map_eq_ok built
      exact unionFields_exports made
  | record _ _ _ contributed inherited =>
      have start := forall_mem_values_empty FieldDefinition.Exports
      exact (index.keptByFlattening_exports _).record start contributed inherited
  | mapping | transparent | distinct =>
      intro field member
      cases member

/-! ## Constants -/

theorem Defines.constantName_eq (defines : index.Defines trail name node definition)
    {base : TypeExpr} {constants : List EnumConstant}
    (enumerates : definition.shape = .enumeration base constants) :
    definition.name ≠ "" ∧ ∀ constant ∈ constants,
      constant.constantName = Naming.enumConstantName definition.name constant.name := by
  obtain ⟨-, named, rfl⟩ :=
    SchemaNode.enumeration?_eq_some_iff.1 (defines.enumeration?_eq enumerates)
  cases enumerates
  refine ⟨named, ?_⟩
  intro constant listed
  obtain ⟨position, bound, rfl⟩ := List.getElem_of_mem listed
  simp only [SchemaNode.enumConstants, List.getElem_zipWith]
  rfl

/-! ## Models -/

/-- A definition under the name of a schema has an identifier, unless it is the
enumeration of a schema whose own name exports to nothing. -/
theorem Defines.identifier (defines : index.Defines trail name node definition)
    (named : definition.name ≠ "") :
    Naming.Identifier definition.name ∨
      Naming.exportedName name = "" ∧ node.enumeration? name = some definition := by
  by_cases exported : Naming.exportedName name = ""
  · right
    cases enumerated : node.enumeration? name with
    | none =>
        have nameless : definition.name = "" := by
          rw [defines.name_eq, SchemaNode.canonicalName_of_no_enumeration enumerated, exported]
        exact absurd nameless named
    | some other =>
        cases defines with
        | enumeration found => exact ⟨exported, enumerated ▸ found⟩
        | mapping unlisted | union unlisted | transparent unlisted | distinct unlisted
        | record unlisted =>
            rw [enumerated] at unlisted
            cases unlisted
  · left
    rw [defines.name_eq, SchemaNode.canonicalName_of_exportedName node exported]
    exact (Naming.canonical_exportedName exported).identifier

/-- The identifiers of a model. Every type is called by one, unless it is an
enumeration that had to take its name from a companion. Every field is called by
one if its name has a letter or a digit, and if it is called anything at all.
A constant is called by one exactly when its type is and its companion name
consists of letters and digits. -/
theorem compile_identifiers (index : SchemaIndex) (manifest : ControlManifest) :
    ∀ definition ∈ (index.compile manifest).types,
      (Naming.Identifier definition.name ∨
        ∃ name node, index.lookup name = some node ∧ Naming.exportedName name = "" ∧
          node.enumeration? name = some definition) ∧
      (∀ field ∈ definition.fields,
        (field.exportedName ≠ "" ∨
          ∃ character ∈ field.name.toList, character.isAlphanum = true) →
            Naming.Identifier field.exportedName) ∧
      ∀ base constants, definition.shape = .enumeration base constants →
        ∀ constant ∈ constants,
          (Naming.Identifier constant.constantName ↔ Naming.Identifier definition.name ∧
            ∀ character ∈ constant.name.toList, character.isAlphanum = true) := by
  intro definition generated
  obtain ⟨name, node, found, defined⟩ := cases_of_mem_synthesizeTypes generated
  obtain ⟨trail, called, inner, defines⟩ :
      ∃ trail called inner, index.Defines trail called inner definition := by
    rcases defined with ⟨own, -⟩ | ⟨_, _, helper⟩
    · exact ⟨_, _, _, own⟩
    · exact ⟨_, _, _, helper.defines⟩
  refine ⟨?_, ?_, ?_⟩
  · rcases defined with ⟨own, named⟩ | helper
    · rcases own.identifier named with identifier | ⟨exported, enumerated⟩
      · exact Or.inl identifier
      · exact Or.inr ⟨name, node, found, exported, enumerated⟩
    · exact Or.inl (helper.canonical_name found).identifier
  · intro field listed named
    exact (defines.exports field listed).identifier named
  · intro base constants enumerates constant listed
    obtain ⟨named, constantName⟩ := defines.constantName_eq enumerates
    rw [constantName constant listed]
    exact Naming.identifier_enumConstantName_iff named

/-! ## A companion name of two words -/

/-- An enumeration with a companion name that has a space in it. -/
def statusNode : SchemaNode :=
  { type := some .string, enumValues := [.string "open", .string "busy"]
    enumNames := ["Open", "In progress"] }

def statusIndex : SchemaIndex where
  schemas := ⟨[("Status", .inline statusNode)], by decide⟩

def statusDefinition : TypeDefinition :=
  .enumeration "Status" .string
    [⟨"Open", "StatusOpen", "\"open\""⟩, ⟨"In progress", "StatusIn progress", "\"busy\""⟩]

theorem compile_statusIndex : (statusIndex.compile {}).types = [statusDefinition] := by
  have built : statusIndex.buildAlone "Status" statusNode = .ok ⟨statusDefinition, []⟩ := rfl
  exact synthesizeTypes_of_only rfl rfl built

/-- The name of the type and the constant of one word are identifiers, and the
constant of two words is none. -/
theorem compile_identifiers_status :
    Naming.Identifier statusDefinition.name ∧ Naming.Identifier "StatusOpen" ∧
      ¬ Naming.Identifier "StatusIn progress" := by
  have generated : statusDefinition ∈ (statusIndex.compile {}).types := by
    rw [compile_statusIndex]
    exact List.mem_cons_self
  obtain ⟨typed, -, constants⟩ := compile_identifiers statusIndex {} _ generated
  have name : Naming.Identifier statusDefinition.name := by
    rcases typed with identifier | ⟨schema, node, found, exported, -⟩
    · exact identifier
    · have declared : schema ∈ ["Status"] := mem_names_of_lookup found
      rw [List.mem_singleton.1 declared] at exported
      exact absurd exported (by decide +kernel)
  have oneWord := constants _ _ rfl ⟨"Open", "StatusOpen", "\"open\""⟩ List.mem_cons_self
  have twoWords := constants _ _ rfl ⟨"In progress", "StatusIn progress", "\"busy\""⟩
    (List.mem_cons_of_mem _ List.mem_cons_self)
  refine ⟨name, oneWord.2 ⟨name, by simp⟩, ?_⟩
  intro identifier
  have letters := (twoWords.1 identifier).2
  exact absurd (letters ' ' (by decide +kernel)) (by decide)

/-! ## Names without letters -/

/-- An enumeration that is called by its companion, below a name without letters
or digits. -/
def progressNode : SchemaNode :=
  { type := some .string, enumValues := [.string "busy"], enumNames := ["in progress"] }

/-- A record whose property has a name without letters or digits. -/
def lineNode : SchemaNode :=
  { properties := [("-", textSchema)] }

def lineIndex : SchemaIndex where
  schemas := ⟨[("-", .inline progressNode), ("Line", .inline lineNode)], by decide⟩

def progressDefinition : TypeDefinition :=
  .enumeration "in progress" .string [⟨"in progress", "in progress", "\"busy\""⟩]

def lineDefinition : TypeDefinition :=
  .record "Line" none [.withoutNotes "-" "" (.optional .string) true]

theorem compile_lineIndex :
    (lineIndex.compile {}).types = [progressDefinition, lineDefinition] := by
  have progress : lineIndex.buildAlone "-" progressNode = .ok ⟨progressDefinition, []⟩ := rfl
  have line : lineIndex.buildAlone "Line" lineNode = .ok ⟨lineDefinition, []⟩ := by
    unfold buildAlone
    simp only [Synthesizer.build, Synthesizer.namedDefinition, Synthesizer.start,
      recordDefinition, lineNode, textSchema, contribution, properties, parents, propertyType,
      typeOf_primitive]
    rfl
  have names : (lineIndex.names.filter fun name => name ∉ []) = ["-", "Line"] := rfl
  change lineIndex.synthesizeTypes [] = _
  rw [synthesizeTypes_eq_firstOfEachName, names, List.flatMap_cons, List.flatMap_singleton,
    emittedAlone_of_ok rfl progress, emittedAlone_of_ok rfl line]
  rfl

/-- Not every constant, not every type and not every field of a model is called
by an identifier. -/
theorem compile_names_not_identifiers :
    (∃ definition ∈ (statusIndex.compile {}).types, ∃ base constants,
        definition.shape = .enumeration base constants ∧
          ∃ constant ∈ constants, ¬ Naming.Identifier constant.constantName) ∧
      (∃ definition ∈ (lineIndex.compile {}).types, ¬ Naming.Identifier definition.name) ∧
      ∃ definition ∈ (lineIndex.compile {}).types, ∃ field ∈ definition.fields,
        ¬ Naming.Identifier field.exportedName := by
  have noSpace : ¬ ' '.isAlphanum = true := by decide
  rw [compile_statusIndex, compile_lineIndex]
  refine ⟨⟨statusDefinition, List.mem_cons_self, _, _, rfl,
      ⟨"In progress", "StatusIn progress", "\"busy\""⟩,
      List.mem_cons_of_mem _ List.mem_cons_self, ?_⟩,
    ⟨progressDefinition, List.mem_cons_self, ?_⟩,
    lineDefinition, List.mem_cons_of_mem _ List.mem_cons_self, _, List.mem_cons_self, ?_⟩
  · exact fun constant => noSpace (constant.letters ' ' (by decide +kernel))
  · exact fun type => noSpace (type.letters ' ' (by decide +kernel))
  · exact fun field => field.nonempty rfl

end SchemaIndex

end SchemaCompiler
