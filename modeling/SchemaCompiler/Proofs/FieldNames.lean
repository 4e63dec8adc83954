import SchemaCompiler.Proofs.Folding

/-!
Contract: the names that the fields of a flattened record are told apart by.

Owns:
- `SchemaIndex.wireName`, the name that the field of an occurrence is serialized
  under;
- `Synthesizer.recordDefinition_names`: the names that fields are written under
  are always distinct; their identifiers are distinct exactly when the first
  occurrences of two names never ask for one identifier, and so are the names
  they are serialized under.

A record is keyed by the names that its fields are written under. Identifiers
are derived from these by leaving characters out, and the alternative of a union
is serialized under its identifier, so two names may come to one of either.

Does not own: the names of the alternatives of one union
(`SchemaCompiler.Proofs.Alternatives`).
-/

namespace SchemaCompiler

namespace SchemaIndex

open Minting

/-- The name that the field of an occurrence is serialized under: its own, where
a property of that name is declared, and otherwise the one that an alternative
gets from its identifier. -/
def wireName (index : SchemaIndex) (node : SchemaNode) (occurrence : Occurrence) : String :=
  if occurrence.name ∈ index.declaredNames node then occurrence.name
  else Naming.lowerCamel occurrence.identifier

/-! ## Tables -/

/-- Flattening keeps the tags of a table: a property has its own name there, and
an alternative one derived from its identifier. -/
theorem keptByFlattening_tagged (index : SchemaIndex) (required : List String) :
    index.KeptByFlattening required
      (FieldTable.Marked (fun field => field.tag.name = field.name)
        fun field => field.tag.name = Naming.lowerCamel field.exportedName) := by
  apply keptByFlattening_marked
  · intro property schema type
    rfl
  · intro field _
    rfl
  · intro trail source fields made field member
    obtain ⟨variant, -, outcome⟩ := exists_of_mem_mapM_ok made field member
    obtain ⟨type, -, rfl⟩ := variantField_eq_ok_iff.1 outcome
    rfl

/-! ## Records -/

variable {index : SchemaIndex} {trail : List String} {name : String} {node : SchemaNode}
  {definition : TypeDefinition} {fields : List FieldDefinition}

theorem exists_marked_of_recordDefinition
    (built : Yields (index.recordDefinition trail name node) definition)
    (flattened : definition.shape = .record fields) :
    ∃ table : FieldTable, fields = table.values ∧
      table.Marked (fun field => field.tag.name = field.name)
        (fun field => field.tag.name = Naming.lowerCamel field.exportedName)
        (index.declaredNames node) :=
  (index.keptByFlattening_tagged (index.requiredNames node)).recordDefinition
    (FieldTable.marked_empty _ _) built flattened

/-- No two fields are written under one name. -/
theorem nodup_names_of_recordDefinition
    (built : Yields (index.recordDefinition trail name node) definition)
    (flattened : definition.shape = .record fields) :
    (fields.map FieldDefinition.name).Nodup := by
  obtain ⟨table, rfl, marked⟩ := exists_marked_of_recordDefinition built flattened
  have names : table.values.map FieldDefinition.name = table.keys := by
    rw [OrderedTable.values, List.map_map]
    refine List.map_congr_left fun entry member => ?_
    exact (marked.each entry.1 entry.2 (Entries.find?_eq_some_of_mem table.nodup member)).1
  rw [names]
  exact table.nodup

/-- A field is serialized under the wire name of the first occurrence of its
name. -/
theorem exists_heads_wireName
    (built : Yields (index.recordDefinition trail name node) definition)
    (flattened : definition.shape = .record fields) :
    ∀ field ∈ fields, ∃ occurrence, index.Heads node occurrence ∧
      occurrence.name = field.name ∧ index.wireName node occurrence = field.tag.name := by
  intro field member
  obtain ⟨occurrence, heads, named, identified⟩ :=
    exists_heads_of_recordDefinition built flattened field member
  obtain ⟨table, rfl, marked⟩ := exists_marked_of_recordDefinition built flattened
  refine ⟨occurrence, heads, named, ?_⟩
  have tagged := marked.of_mem member
  rw [wireName, named, identified]
  split at tagged
  · rename_i declared
    rw [if_pos declared, tagged]
  · rename_i undeclared
    rw [if_neg undeclared, tagged]

/-- What each field takes over from the first occurrence of its name is different
for any two fields exactly when it is for any two first occurrences. -/
theorem nodup_map_iff_heads
    (built : Yields (index.recordDefinition trail name node) definition)
    (flattened : definition.shape = .record fields) {taken : FieldDefinition → String}
    {asked : Occurrence → String}
    (each : ∀ field ∈ fields, ∃ occurrence, index.Heads node occurrence ∧
      occurrence.name = field.name ∧ asked occurrence = taken field) :
    (fields.map taken).Nodup ↔
      ∀ first other, index.Heads node first → index.Heads node other →
        asked first = asked other → first.name = other.name := by
  have distinct := nodup_names_of_recordDefinition built flattened
  constructor
  · intro apart first other heads others same
    obtain ⟨left, leftMember, leftNamed, -⟩ := exists_field_of_heads built flattened heads
    obtain ⟨right, rightMember, rightNamed, -⟩ := exists_field_of_heads built flattened others
    -- A first occurrence is determined by its name, so each field takes over from the given one.
    obtain ⟨atLeft, leftHeads, atLeftNamed, leftTaken⟩ := each left leftMember
    obtain ⟨atRight, rightHeads, atRightNamed, rightTaken⟩ := each right rightMember
    cases leftHeads.eq_of_name heads (atLeftNamed.trans leftNamed)
    cases rightHeads.eq_of_name others (atRightNamed.trans rightNamed)
    have equal : left = right := by
      apply List.inj_on_of_nodup_map apart leftMember rightMember
      rw [← leftTaken, ← rightTaken, same]
    rw [← leftNamed, ← rightNamed, equal]
  · intro apart
    apply List.Nodup.map_on _ (List.Nodup.of_map _ distinct)
    intro left leftMember right rightMember same
    obtain ⟨first, heads, named, firstTaken⟩ := each left leftMember
    obtain ⟨other, others, otherNamed, otherTaken⟩ := each right rightMember
    apply List.inj_on_of_nodup_map distinct leftMember rightMember
    rw [← named, ← otherNamed]
    exact apart first other heads others (by rw [firstTaken, otherTaken, same])

end SchemaIndex

namespace Synthesizer

open SchemaIndex

/-- The fields of a flattened record are written under distinct names. They have
distinct identifiers exactly when no two first occurrences of different names
ask for one, and they are serialized under distinct names exactly when no two
first occurrences have one wire name. -/
theorem recordDefinition_names {synthesizer : Synthesizer} {name : String} {node : SchemaNode}
    {definition : TypeDefinition} {fields : List FieldDefinition}
    (built : (synthesizer.recordDefinition name node).1 = .ok definition)
    (flattened : definition.shape = .record fields) :
    (fields.map FieldDefinition.name).Nodup ∧
      ((fields.map FieldDefinition.exportedName).Nodup ↔
        ∀ first other, synthesizer.index.Heads node first → synthesizer.index.Heads node other →
          first.identifier = other.identifier → first.name = other.name) ∧
      ((fields.map fun field => field.tag.name).Nodup ↔
        ∀ first other, synthesizer.index.Heads node first → synthesizer.index.Heads node other →
          synthesizer.index.wireName node first = synthesizer.index.wireName node other →
            first.name = other.name) := by
  have yields := yields_of_recordDefinition built
  refine ⟨nodup_names_of_recordDefinition yields flattened, ?_, ?_⟩
  · exact nodup_map_iff_heads yields flattened (exists_heads_of_recordDefinition yields flattened)
  · exact nodup_map_iff_heads yields flattened (exists_heads_wireName yields flattened)

/-! ## A property and an alternative of one identifier -/

def portSchema : Schema :=
  .inline { title := some "port-range", type := some .integer }

def portNode : SchemaNode :=
  { oneOf := [portSchema] }

/-- A record with a property, into which a union is folded. -/
def hostNode : SchemaNode :=
  { allOf := [.inline { properties := [("portRange", textSchema)] }, .inline portNode] }

def portField : FieldDefinition :=
  { FieldDefinition.withoutNotes "port-range" "PortRange" (.optional .integer) true with
    tag := ⟨"portRange", true⟩ }

def hostFields : List FieldDefinition :=
  [.withoutNotes "portRange" "PortRange" (.optional .string) true, portField]

theorem unionFields_portNode : SchemaIndex.unionFields {} [] portNode = .ok [portField] := by
  have named : Variant.ofNode portNode = [⟨"port-range", "PortRange", portSchema⟩] := rfl
  simp only [unionFields, named, List.mapM_cons, List.mapM_nil, variantField, portSchema,
    typeOf_primitive]
  rfl

theorem recordDefinition_hostNode :
    ((start {}).recordDefinition "Host" hostNode).1 = .ok (.record "Host" none hostFields) := by
  simp only [recordDefinition, start, SchemaIndex.recordDefinition, hostNode, textSchema,
    contribution, properties, parents, SchemaIndex.propertyType, typeOf_primitive,
    unionFields_portNode]
  rfl

/-- The property and the alternative are told apart by the names they are written
under, and by nothing else. -/
theorem recordDefinition_names_host :
    (hostFields.map FieldDefinition.name).Nodup ∧
      (∃ first other, ({} : SchemaIndex).Heads hostNode first ∧
        ({} : SchemaIndex).Heads hostNode other ∧ first.identifier = other.identifier ∧
          first.name ≠ other.name) ∧
      ∃ first other, ({} : SchemaIndex).Heads hostNode first ∧
        ({} : SchemaIndex).Heads hostNode other ∧
          wireName {} hostNode first = wireName {} hostNode other ∧ first.name ≠ other.name := by
  obtain ⟨distinct, identifiers, wires⟩ := recordDefinition_names recordDefinition_hostNode rfl
  have sameIdentifiers : ¬ (hostFields.map FieldDefinition.exportedName).Nodup := by decide
  have sameWires : ¬ (hostFields.map fun field => field.tag.name).Nodup := by decide
  rw [identifiers] at sameIdentifiers
  rw [wires] at sameWires
  push Not at sameIdentifiers sameWires
  exact ⟨distinct, sameIdentifiers, sameWires⟩

/-- The fields of a flattened record may clash, both in their identifiers and in
the names they are serialized under. -/
theorem recordDefinition_names_clash :
    ¬ ∀ (synthesizer : Synthesizer) (name : String) (node : SchemaNode)
        (definition : TypeDefinition) (fields : List FieldDefinition),
      (synthesizer.recordDefinition name node).1 = .ok definition →
        definition.shape = .record fields →
          (fields.map FieldDefinition.exportedName).Nodup ∧
            (fields.map fun field => field.tag.name).Nodup := by
  intro rule
  have apart := rule (start {}) "Host" hostNode _ _ recordDefinition_hostNode rfl
  revert apart
  decide

end Synthesizer

end SchemaCompiler
