import SchemaCompiler.Proofs.Identifiers
import SchemaCompiler.Proofs.Required

/-!
Contract: the record of a union.

Owns:
- the identifiers that the alternatives of a union are numbered to:
  `Variant.getElem?_named` says what each of them is, and `Variant.nodup_named`
  that they differ from one another and from everything taken before;
- `SchemaIndex.OfAlternative`, the field of the alternative at a position;
- `Synthesizer.unionDefinition_alternatives`: the record of a union has one such
  field for each alternative, and identifiers and tags tell the fields apart.

The names that alternatives are written under may repeat. It is the identifiers
that are made distinct, and the tags follow them.

Does not own: alternatives that are folded into another record
(`SchemaCompiler.Proofs.Folding`).
-/

namespace SchemaCompiler

namespace Variant

/-! ## Identifiers -/

theorem length_named (taken : List String) (position : Nat) (members : List Schema) :
    (named taken position members).length = members.length := by
  induction members generalizing taken position with
  | nil => rfl
  | cons head tail inductionHypothesis =>
      simp only [named, List.length_cons, inductionHypothesis]

/-- No two alternatives have one identifier, and none has one that is taken. -/
theorem nodup_named (taken : List String) (position : Nat) (members : List Schema) :
    ((named taken position members).map exportedName).Nodup ∧
      ∀ identifier ∈ (named taken position members).map exportedName, identifier ∉ taken := by
  induction members generalizing taken position with
  | nil => exact ⟨List.nodup_nil, fun _ member => absurd member List.not_mem_nil⟩
  | cons head tail inductionHypothesis =>
      have fresh := Naming.firstFree_not_mem taken (identifierOf position (nameOf position head))
      obtain ⟨distinct, apart⟩ := inductionHypothesis
        (taken ++ [Naming.firstFree taken (identifierOf position (nameOf position head))])
        (position + 1)
      rw [named, List.map_cons]
      constructor
      · refine List.nodup_cons.2 ⟨fun repeated => apart _ repeated ?_, distinct⟩
        exact List.mem_append_right _ (List.mem_singleton_self _)
      · intro identifier member
        rcases List.mem_cons.1 member with isHead | inTail
        · exact isHead ▸ fresh
        · exact fun listed => apart identifier inTail (List.mem_append_left _ listed)

/-- The alternative at a position is named after it, and its identifier is
numbered past those that are taken and those of the alternatives before it. -/
theorem getElem?_named {members : List Schema} {offset : Nat} {member : Schema}
    (listed : members[offset]? = some member) (taken : List String) (position : Nat) :
    ∃ variant, (named taken position members)[offset]? = some variant ∧
      variant.member = member ∧ variant.name = nameOf (position + offset) member ∧
        Naming.LeastFree (taken ++ ((named taken position members).take offset).map exportedName)
          (identifierOf (position + offset) variant.name) variant.exportedName := by
  induction members generalizing offset taken position with
  | nil => cases listed
  | cons head tail inductionHypothesis =>
      cases offset with
      | zero =>
          cases listed
          refine ⟨_, rfl, rfl, rfl, ?_⟩
          simpa using
            Naming.leastFree_firstFree taken (identifierOf position (nameOf position member))
      | succ offset =>
          obtain ⟨variant, found, ofMember, name, numbered⟩ := inductionHypothesis listed
            (taken ++ [Naming.firstFree taken (identifierOf position (nameOf position head))])
            (position + 1)
          have shifted : position + 1 + offset = position + (offset + 1) := by omega
          rw [shifted] at name numbered
          refine ⟨variant, found, ofMember, name, ?_⟩
          simpa [named] using numbered

end Variant

namespace SchemaIndex

variable {index : SchemaIndex} {trail : List String} {node : SchemaNode}
  {fields : List FieldDefinition}

/-! ## Fields -/

theorem exportedNames_of_unionFields (made : index.unionFields trail node = .ok fields) :
    fields.map FieldDefinition.exportedName = (Variant.ofNode node).map Variant.exportedName := by
  have paired := forall₂_of_mapM_ok made
  clear made
  generalize Variant.ofNode node = variants at paired ⊢
  induction paired with
  | nil => rfl
  | cons head _ inductionHypothesis =>
      obtain ⟨type, -, rfl⟩ := exists_of_map_eq_ok head
      rw [List.map_cons, List.map_cons, inductionHypothesis]

theorem length_of_unionFields (made : index.unionFields trail node = .ok fields) :
    fields.length = node.unionMembers.length := by
  rw [← (forall₂_of_mapM_ok made).length_eq]
  exact Variant.length_named [] 0 node.unionMembers

theorem nodup_exportedNames_of_unionFields (made : index.unionFields trail node = .ok fields) :
    (fields.map FieldDefinition.exportedName).Nodup := by
  rw [exportedNames_of_unionFields made]
  exact (Variant.nodup_named [] 0 node.unionMembers).1

theorem canonical_of_mem_unionFields (made : index.unionFields trail node = .ok fields) :
    ∀ field ∈ fields, Naming.Canonical field.exportedName := by
  intro field member
  have listed : field.exportedName ∈ (Variant.ofNode node).map Variant.exportedName :=
    exportedNames_of_unionFields made ▸ List.mem_map_of_mem member
  obtain ⟨variant, named, same⟩ := List.mem_map.1 listed
  exact same ▸ Variant.canonical_of_mem_named named

/-- The field of the alternative `member` at a position, with the identifiers of
the alternatives before it taken. -/
structure OfAlternative (index : SchemaIndex) (trail taken : List String) (position : Nat)
    (member : Schema) (field : FieldDefinition) : Prop where
  name : field.name = Variant.nameOf position member
  identifier : Naming.LeastFree taken (Variant.identifierOf position field.name) field.exportedName
  tag : field.tag = ⟨Naming.lowerCamel field.exportedName, true⟩
  optional : field.optional = true
  type : ∃ type, index.typeOf trail true member = .ok type ∧ field.type = type.makeOptional
  description : field.description = (index.nodeOf member).bind SchemaNode.normalDescription
  default : field.default = none
  annotate : field.annotate = index.isAnnotatable member

theorem ofAlternative_of_unionFields (made : index.unionFields trail node = .ok fields)
    {position : Nat} {member : Schema} {field : FieldDefinition}
    (listed : node.unionMembers[position]? = some member)
    (placed : fields[position]? = some field) :
    index.OfAlternative trail ((fields.take position).map FieldDefinition.exportedName) position
      member field := by
  obtain ⟨variant, found, rfl, name, numbered⟩ := Variant.getElem?_named listed [] 0
  have identifiers : (fields.take position).map FieldDefinition.exportedName =
      ((Variant.ofNode node).take position).map Variant.exportedName := by
    rw [List.map_take, exportedNames_of_unionFields made, List.map_take]
  have built : index.variantField trail variant = .ok field := by
    have each := (List.forall₂_iff_get.1 (forall₂_of_mapM_ok made)).2
    obtain ⟨inVariants, variantThere⟩ := List.getElem?_eq_some_iff.1 found
    obtain ⟨inFields, fieldThere⟩ := List.getElem?_eq_some_iff.1 placed
    rw [← variantThere, ← fieldThere]
    exact each position inVariants inFields
  obtain ⟨type, typed, rfl⟩ := exists_of_map_eq_ok built
  rw [Nat.zero_add] at name numbered
  rw [List.nil_append] at numbered
  rw [identifiers]
  exact ⟨name, numbered, rfl, rfl, ⟨type, typed, rfl⟩, rfl, rfl, rfl⟩

theorem nodup_tags_of_unionFields (made : index.unionFields trail node = .ok fields) :
    (fields.map fun field => field.tag.name).Nodup := by
  have tagged : fields.map (fun field => field.tag.name) =
      (fields.map FieldDefinition.exportedName).map Naming.lowerCamel := by
    rw [List.map_map]
    refine List.map_congr_left fun field member => ?_
    obtain ⟨variant, -, built⟩ := exists_of_mem_mapM_ok made field member
    obtain ⟨type, -, rfl⟩ := exists_of_map_eq_ok built
    rfl
  rw [tagged]
  refine (nodup_exportedNames_of_unionFields made).map_on ?_
  intro left leftMember right rightMember same
  obtain ⟨field, listed, rfl⟩ := List.mem_map.1 leftMember
  obtain ⟨other, otherListed, rfl⟩ := List.mem_map.1 rightMember
  exact (canonical_of_mem_unionFields made field listed).eq_of_lowerCamel
    (canonical_of_mem_unionFields made other otherListed) same

end SchemaIndex

/-! ## Records of unions -/

namespace Synthesizer

/-- The record of a union has one optional field for each alternative, in order.
The fields have identifiers, all different, and tags, all different. Each
identifier is the canonical name of the alternative, or stands for its position
where there is none, with the least number that sets it apart from the
alternatives before. -/
theorem unionDefinition_alternatives {synthesizer : Synthesizer} {name : String}
    {node : SchemaNode} {definition : TypeDefinition}
    (built : synthesizer.unionDefinition name node = .ok definition) :
    ∃ fields : List FieldDefinition, definition =
        .record (Naming.exportedName name) node.normalDescription fields ∧
      fields.length = node.unionMembers.length ∧
      (∀ position member field, node.unionMembers[position]? = some member →
        fields[position]? = some field →
          synthesizer.index.OfAlternative synthesizer.trail
            ((fields.take position).map FieldDefinition.exportedName) position member field) ∧
      (∀ field ∈ fields, field.optional = true ∧ field.exportedName ≠ "") ∧
      (fields.map FieldDefinition.exportedName).Nodup ∧
      (fields.map fun field => field.tag.name).Nodup := by
  obtain ⟨fields, made, rfl⟩ := exists_of_map_eq_ok built
  refine ⟨fields, rfl, SchemaIndex.length_of_unionFields made, ?_, ?_,
    SchemaIndex.nodup_exportedNames_of_unionFields made,
    SchemaIndex.nodup_tags_of_unionFields made⟩
  · intro position member field listed placed
    exact SchemaIndex.ofAlternative_of_unionFields made listed placed
  · intro field member
    exact ⟨SchemaIndex.optional_of_mem_unionFields made field member,
      (SchemaIndex.canonical_of_mem_unionFields made field member).ne_empty⟩

/-! ## Alternatives of one type -/

/-- A union of two texts and of a number, the title of which is what the second
text is numbered to. -/
def rangeNode : SchemaNode :=
  { oneOf := [.inline { type := some .string }, .inline { type := some .string },
      .inline { title := some "String2", type := some .integer }] }

/-- The field of a text without a title, under the name of its type. -/
def firstTextField : FieldDefinition := .withoutNotes "string" "String" (.optional .string) true

def secondTextField : FieldDefinition :=
  { firstTextField with exportedName := "String2", tag := ⟨"string2", true⟩ }

def rangeFields : List FieldDefinition :=
  [firstTextField, secondTextField,
    { FieldDefinition.withoutNotes "String2" "String22" (.optional .integer) true with
      tag := ⟨"string22", true⟩ }]

theorem unionDefinition_rangeNode :
    (start {}).unionDefinition "Range" rangeNode = .ok (.record "Range" none rangeFields) := by
  have named : Variant.ofNode rangeNode =
      [⟨"string", "String", .inline { type := some .string }⟩,
        ⟨"string", "String2", .inline { type := some .string }⟩,
        ⟨"String2", "String22", .inline { title := some "String2", type := some .integer }⟩] := rfl
  simp only [unionDefinition, start, SchemaIndex.unionDefinition, SchemaIndex.unionFields, named,
    List.mapM_cons, List.mapM_nil, SchemaIndex.variantField, SchemaIndex.typeOf_primitive]
  rfl

/-- The number gives way to the second text, which has its identifier already. -/
theorem unionDefinition_alternatives_range :
    (rangeFields.map FieldDefinition.exportedName).Nodup ∧
      (rangeFields.map fun field => field.tag.name).Nodup ∧
      Naming.LeastFree ["String", "String2"] "String2" "String22" := by
  obtain ⟨fields, same, -, each, -, identifiers, tags⟩ :=
    unionDefinition_alternatives unionDefinition_rangeNode
  cases same
  exact ⟨identifiers, tags, (each 2 _ _ rfl rfl).identifier⟩

end Synthesizer

end SchemaCompiler
