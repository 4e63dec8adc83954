import SchemaCompiler.Proofs.Occurrences

/-!
Contract: what flattening does to a table of fields.

Owns:
- `SchemaIndex.declaredNames`, the names of the properties that a node and its
  parents declare;
- `FieldTable.Marked`, a table of which one statement holds for the fields of the
  properties taken up so far, and another for the rest;
- `SchemaIndex.KeptByFlattening`, the two laws under which a statement about a
  table survives flattening: one for an occurrence of a property, and one for an
  alternative whose name is new. The statement may speak of the properties
  taken up so far;
- `keptByFlattening_forall`, which gives the two laws for a statement about
  single fields, and `keptByFlattening_marked`, which does so where the statement
  depends on whether the name of the field was taken up as a property;
- `KeptByFlattening.record` and `KeptByFlattening.recordDefinition`: such a
  statement holds of the fields of every flattened record, with all declared
  properties taken up.

The induction over the run is made here once. What is true of the fields of
records follows from the two laws.

Does not own: what is said of the fields.
-/

namespace SchemaCompiler

/-- The names of the properties of a node, in order. -/
def SchemaNode.propertyNames (node : SchemaNode) : List String :=
  node.properties.map Prod.fst

/-- The name of the property that an occurrence is, if it is one. -/
def Occurrence.property? : Occurrence → Option String
  | .property name _ => some name
  | .alternative _ => none

/-! ## Tables with marked fields -/

namespace FieldTable

/-- Every property taken up has a field, and each field stands under its own
name. One statement holds of the fields of properties taken up, and another of
the rest. -/
structure Marked (taken untaken : FieldDefinition → Prop) (known : List String)
    (table : FieldTable) : Prop where
  covered : ∀ name ∈ known, name ∈ table.keys
  each : ∀ name field, table.find? name = some field →
    field.name = name ∧ if name ∈ known then taken field else untaken field

variable {taken untaken : FieldDefinition → Prop} {known : List String} {table : FieldTable}
  {field : FieldDefinition}

theorem marked_empty (taken untaken : FieldDefinition → Prop) : Marked taken untaken [] {} := by
  constructor
  · intro name member
    cases member
  · intro name field found
    cases found

/-- One more property is taken up with its new field. -/
theorem Marked.insert_property (marked : Marked taken untaken known table) {property : String}
    (named : field.name = property) (held : taken field) :
    Marked taken untaken (known ++ [property]) (table.insert property field) := by
  constructor
  · intro name member
    rw [OrderedTable.mem_keys_insert]
    rcases List.mem_append.1 member with old | new
    · exact Or.inr (marked.covered name old)
    · exact Or.inl (List.mem_singleton.1 new)
  · intro name other found
    rw [OrderedTable.find?_insert] at found
    split at found
    · rename_i same
      subst same
      cases found
      rw [if_pos (List.mem_append_right _ (List.mem_singleton_self property))]
      exact ⟨named, held⟩
    · rename_i different
      have unchanged : name ∈ known ++ [property] ↔ name ∈ known := by
        rw [List.mem_append, List.mem_singleton]
        exact or_iff_left (Ne.symm different)
      simp only [unchanged]
      exact marked.each name other found

/-- A field under a new name is no property taken up so far. -/
theorem Marked.insert_alternative (marked : Marked taken untaken known table)
    (new : field.name ∉ table.keys) (held : untaken field) :
    Marked taken untaken known (table.insert field.name field) := by
  have unknown : field.name ∉ known := fun member => new (marked.covered field.name member)
  constructor
  · intro name member
    exact OrderedTable.mem_keys_insert.2 (Or.inr (marked.covered name member))
  · intro name other found
    rw [OrderedTable.find?_insert] at found
    split at found
    · rename_i same
      subst same
      cases found
      rw [if_neg unknown]
      exact ⟨rfl, held⟩
    · exact marked.each name other found

/-- What is known of a field of a marked table. -/
theorem Marked.of_mem (marked : Marked taken untaken known table) (member : field ∈ table.values) :
    if field.name ∈ known then taken field else untaken field := by
  obtain ⟨key, found⟩ := OrderedTable.exists_find?_of_mem_values member
  obtain ⟨named, held⟩ := marked.each key field found
  rwa [named]

end FieldTable

/-! ## Laws of flattening -/

namespace SchemaIndex

open Minting

/-- The names of the properties that the schemas of a list declare, references
being followed. -/
def namesDeclaredBy (index : SchemaIndex) (members : List Schema) : List String :=
  (members.filterMap index.nodeOf).flatMap SchemaNode.propertyNames

/-- The names of the properties that a node or one of its parents declares. -/
def declaredNames (index : SchemaIndex) (node : SchemaNode) : List String :=
  node.propertyNames ++ index.namesDeclaredBy node.allOf

theorem filterMap_property?_occurrences (node : SchemaNode) :
    node.occurrences.filterMap Occurrence.property? = node.propertyNames := by
  unfold SchemaNode.occurrences SchemaNode.propertyNames
  split
  · rw [List.filterMap_map, ← List.filterMap_eq_map]
    rfl
  · rename_i bare
    have nothing : node.properties = [] := by
      simpa [SchemaNode.hasProperties] using bare
    rw [nothing, List.filterMap_map, List.map_nil]
    exact List.filterMap_eq_nil_iff.2 fun _ _ => rfl

/-- The properties among the occurrences are those that are declared. -/
theorem properties_occurrences (index : SchemaIndex) (node : SchemaNode) :
    (index.occurrences node).filterMap Occurrence.property? = index.declaredNames node := by
  simp only [occurrences, declaredNames, occurrencesOf, namesDeclaredBy, List.filterMap_append,
    List.filterMap_flatMap, filterMap_property?_occurrences]

/-- Flattening under the required names keeps a statement about the properties
taken up so far and the table. -/
structure KeptByFlattening (index : SchemaIndex) (required : List String)
    (holds : List String → FieldTable → Prop) : Prop where
  property : ∀ {known : List String} {table : FieldTable} {trail : List String}
    {parent property : String} {schema : Schema} {type : TypeExpr}, holds known table →
      Yields (index.propertyType trail parent property schema) type →
      holds (known ++ [property])
        (index.withProperty table property schema type (!required.contains property))
  alternative : ∀ {known : List String} {table : FieldTable} {trail : List String}
    {source : SchemaNode} {fields : List FieldDefinition} {field : FieldDefinition},
      holds known table → index.unionFields trail source = .ok fields → field ∈ fields →
      field.name ∉ table.keys → holds known (table.insert field.name field)

namespace KeptByFlattening

variable {index : SchemaIndex} {required : List String} {holds : List String → FieldTable → Prop}
  {start : Site} {trail known : List String} {parent : String} {table extended : FieldTable}

/-- What is kept holds after a run over occurrences, with their properties taken
up. -/
theorem takesUp (kept : index.KeptByFlattening required holds) {occurrences : List Occurrence}
    (run : index.TakesUp start parent required occurrences table extended)
    (held : holds known table) :
    holds (known ++ occurrences.filterMap Occurrence.property?) extended := by
  induction run generalizing known with
  | done => simpa using held
  | @next occurrence rest type table extended typed _ inductionHypothesis =>
      cases typed with
      | @property trail name schema _ _ typed =>
          have further := inductionHypothesis (kept.property held typed)
          rwa [List.append_assoc] at further
      | @alternative trail source fields variant _ made listed typed =>
          apply inductionHypothesis
          unfold takeUp
          simp only
          split
          · exact held
          · rename_i new
            have absent : variant.name ∉ table.keys :=
              fun found => new (Entries.has_iff_mem_keys.2 found)
            exact kept.alternative held made listed absent

/-- What holds of the empty table and is kept holds of the table of a record,
with every property of the node and of its parents taken up. -/
theorem record (kept : index.KeptByFlattening required holds) {node : SchemaNode}
    {own : FieldTable} (start : holds [] {})
    (contributed : Yields (index.contribution trail parent required node {}) own)
    (inherited : Yields (index.parents trail parent required node.allOf own) table) :
    holds (index.declaredNames node) table := by
  have root : index.Descends ⟨trail, parent, .inline node⟩ ⟨trail, parent, .inline node⟩ := .here
  have held := kept.takesUp (takesUp_record root contributed inherited) start
  rwa [List.nil_append, properties_occurrences] at held

end KeptByFlattening

/-! ## Statements about single fields -/

/-- A statement about fields is kept if it holds of the field of a property and of
the alternatives of unions, and if a further occurrence of a property does not
change it. -/
theorem keptByFlattening_forall {index : SchemaIndex} {holds : FieldDefinition → Prop}
    (required : List String)
    (property : ∀ {trail : List String} {parent property : String} {schema : Schema}
      {type : TypeExpr}, Yields (index.propertyType trail parent property schema) type →
        ∀ optional, holds (index.propertyField property schema type optional))
    (further : ∀ {field : FieldDefinition}, holds field → ∀ property optional,
      holds (FieldTable.merged field property optional))
    (alternative : ∀ {trail : List String} {source : SchemaNode} {fields : List FieldDefinition},
      index.unionFields trail source = .ok fields → ∀ field ∈ fields, holds field) :
    index.KeptByFlattening required fun _ table => ∀ field ∈ table.values, holds field where
  property {known table trail parent name schema type} held typed := by
    intro field member
    unfold withProperty at member
    split at member
    · rename_i old found
      rcases OrderedTable.mem_values_insert member with new | before
      · have oldHolds : holds old := held old (OrderedTable.mem_values_of_find? found)
        exact new ▸ further oldHolds name _
      · exact held field before
    · rcases OrderedTable.mem_values_insert member with new | before
      · exact new ▸ property typed _
      · exact held field before
  alternative held made listed _ := by
    intro field member
    rcases OrderedTable.mem_values_insert member with new | before
    · exact new ▸ alternative made _ listed
    · exact held field before

theorem forall_mem_values_empty (holds : FieldDefinition → Prop) :
    ∀ field ∈ OrderedTable.values ({} : FieldTable), holds field := by
  intro field member
  cases member

/-! ## Statements that depend on the properties taken up -/

/-- A table stays marked if the first statement holds of the field of a property
and of any field it is merged with, and the second one of the alternatives of
unions. -/
theorem keptByFlattening_marked {index : SchemaIndex} {required : List String}
    {taken untaken : FieldDefinition → Prop}
    (property : ∀ property schema type,
      taken (index.propertyField property schema type (!required.contains property)))
    (further : ∀ field, taken field ∨ untaken field →
      taken (FieldTable.merged field field.name (!required.contains field.name)))
    (alternative : ∀ {trail : List String} {source : SchemaNode} {fields : List FieldDefinition},
      index.unionFields trail source = .ok fields → ∀ field ∈ fields, untaken field) :
    index.KeptByFlattening required (FieldTable.Marked taken untaken) where
  property {known table trail parent name schema type} marked _ := by
    unfold withProperty
    split
    · rename_i field found
      obtain ⟨named, held⟩ := marked.each name field found
      have either : taken field ∨ untaken field := by
        split at held
        · exact Or.inl held
        · exact Or.inr held
      have merged := further field either
      rw [named] at merged
      exact marked.insert_property named merged
    · exact marked.insert_property rfl (property name schema type)
  alternative marked made listed new :=
    marked.insert_alternative new (alternative made _ listed)

/-! ## Flattened records -/

variable {index : SchemaIndex} {trail : List String} {name : String} {node : SchemaNode}
  {definition : TypeDefinition} {fields : List FieldDefinition}

/-- A definition with fields comes of the last case of `recordDefinition`, the
one that flattens. -/
theorem recordDefinition_eq_of_flattened
    (built : Yields (index.recordDefinition trail name node) definition)
    (flattened : definition.shape = .record fields) :
    index.recordDefinition trail name node = (do
      let own ← index.contribution trail name (index.requiredNames node) node {}
      let table ← index.parents trail name (index.requiredNames node) node.allOf own
      return .record (Naming.exportedName name) node.normalDescription table.values) := by
  rw [recordDefinition] at built ⊢
  cases enumerated : node.enumeration? name with
  | some enumeration =>
      rw [enumerated] at built
      obtain ⟨-, -, rfl⟩ := SchemaNode.enumeration?_eq_some_iff.1 enumerated
      rw [← eq_of_yields_pure built] at flattened
      cases flattened
  | none =>
      rw [enumerated] at built
      obtain ⟨aliased, mapped, rest⟩ := built.of_bind
      have outcome := eq_of_yields_ofExcept mapped
      simp only [outcome]
      cases aliased with
      | some target =>
          rw [← eq_of_yields_pure rest] at flattened
          cases flattened
      | none =>
          by_cases empty : node.isEmptySchema = true
          · simp only [empty, if_true] at rest
            obtain ⟨type, -, last⟩ := rest.of_bind
            split at last
            · rw [← eq_of_yields_pure last] at flattened
              cases flattened
            · rw [← eq_of_yields_pure last] at flattened
              cases flattened
          · simp only [empty]
            rfl

theorem exists_tables_of_recordDefinition
    (built : Yields (index.recordDefinition trail name node) definition)
    (flattened : definition.shape = .record fields) :
    ∃ own table : FieldTable,
      Yields (index.contribution trail name (index.requiredNames node) node {}) own ∧
        Yields (index.parents trail name (index.requiredNames node) node.allOf own) table ∧
          fields = table.values := by
  rw [recordDefinition_eq_of_flattened built flattened] at built
  obtain ⟨own, contributed, afterOwn⟩ := built.of_bind
  obtain ⟨table, inherited, last⟩ := afterOwn.of_bind
  rw [← eq_of_yields_pure last] at flattened
  cases flattened
  exact ⟨own, table, contributed, inherited, rfl⟩

/-- What holds of the empty table and is kept holds of the fields of a
flattened record. -/
theorem KeptByFlattening.recordDefinition {holds : List String → FieldTable → Prop}
    (kept : index.KeptByFlattening (index.requiredNames node) holds) (start : holds [] {})
    (built : Yields (index.recordDefinition trail name node) definition)
    (flattened : definition.shape = .record fields) :
    ∃ table : FieldTable, fields = table.values ∧ holds (index.declaredNames node) table := by
  obtain ⟨own, table, contributed, inherited, same⟩ :=
    exists_tables_of_recordDefinition built flattened
  exact ⟨table, same, kept.record start contributed inherited⟩

end SchemaIndex

end SchemaCompiler
