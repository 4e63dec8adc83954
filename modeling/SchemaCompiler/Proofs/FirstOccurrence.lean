import SchemaCompiler.Proofs.Optionality

/-!
Contract: which schema a field of a record stands for.

Owns:
- `SchemaIndex.StandsFor`, a field that has its name, its flag and, below the
  optional layer, its type from an occurrence;
- `SchemaIndex.Tracks`, the invariant of a table under construction: a field
  stands for the first occurrence of its name;
- `SchemaIndex.Represents`, the occurrence behind a field: the first of its name
  in a flattened record, and the alternative at its place in a union;
- `Defines.represents`: whatever a node is built into, each field of it stands
  for the occurrence that it represents.

Further occurrences of a property take the optional layer away at most.

Does not own: what the types of occurrences are.
-/

namespace SchemaCompiler

namespace SchemaIndex

open Minting

variable {index : SchemaIndex} {start : Site} {parent : String} {required : List String}

/-! ## Fields -/

theorem Types.plain {occurrence : Occurrence} {type : TypeExpr}
    (typed : index.Types start parent occurrence type) : type.Plain := by
  cases typed with
  | property _ typed => exact propertyType_plain typed
  | alternative _ _ typed => exact typeOf_plain typed

/-- A field that is made of an occurrence, whether or not it is optional. -/
structure StandsFor (index : SchemaIndex) (start : Site) (parent : String)
    (field : FieldDefinition) (occurrence : Occurrence) : Prop where
  named : field.name = occurrence.name
  annotate : field.annotate = index.isAnnotatable occurrence.schema
  typed : index.Types start parent occurrence field.type.stripOptional

theorem standsFor_firstField (required : List String) {occurrence : Occurrence} {type : TypeExpr}
    (typed : index.Types start parent occurrence type) :
    index.StandsFor start parent (index.firstField required occurrence type) occurrence := by
  have stripped : (index.firstField required occurrence type).type.stripOptional = type := by
    cases occurrence with
    | property name schema =>
        change (if !required.contains name then type.makeOptional else type).stripOptional = type
        split
        · exact typed.plain.stripOptional_makeOptional
        · exact typed.plain.stripOptional_eq
    | alternative variant => exact typed.plain.stripOptional_makeOptional
  cases occurrence <;> exact ⟨rfl, rfl, stripped.symm ▸ typed⟩

/-- A merged field stands for the same occurrence. -/
theorem StandsFor.merged {field : FieldDefinition} {occurrence : Occurrence}
    (stands : index.StandsFor start parent field occurrence) (property : String)
    (optional : Bool) :
    index.StandsFor start parent (FieldTable.merged field property optional) occurrence := by
  refine ⟨stands.named, stands.annotate, ?_⟩
  have stripped : (FieldTable.merged field property optional).type.stripOptional =
      field.type.stripOptional := by
    simp only [FieldTable.merged]
    split
    · rfl
    · exact stands.typed.plain.stripOptional_eq
  rw [stripped]
  exact stands.typed

/-! ## Tables -/

/-- Every occurrence seen so far has a field under its name, and every field
stands for the first one of its name. -/
structure Tracks (index : SchemaIndex) (start : Site) (parent : String)
    (seen : List Occurrence) (table : FieldTable) : Prop where
  covered : ∀ occurrence ∈ seen, occurrence.name ∈ table.keys
  first : ∀ name field, table.find? name = some field →
    ∃ occurrence, seen.find? (fun other => other.name = name) = some occurrence ∧
      index.StandsFor start parent field occurrence

variable {seen : List Occurrence} {table extended : FieldTable}

theorem tracks_of_leads (leads : table.Leads Occurrence.name
      (fun occurrence field => index.StandsFor start parent field occurrence) seen) :
    index.Tracks start parent seen table :=
  ⟨fun occurrence member => leads.mem_keys_iff.2 ⟨occurrence, member, rfl⟩, leads.first⟩

/-- In a run the fields come to stand for the first occurrences of their names. -/
theorem TakesUp.leads {occurrences : List Occurrence}
    (run : index.TakesUp start parent required occurrences table extended)
    (leads : table.Leads Occurrence.name
      (fun occurrence field => index.StandsFor start parent field occurrence) seen) :
    extended.Leads Occurrence.name
      (fun occurrence field => index.StandsFor start parent field occurrence)
      (seen ++ occurrences) := by
  induction run generalizing seen with
  | done => rwa [List.append_nil]
  | @next occurrence _ _ _ _ typed _ inductionHypothesis =>
      have further := inductionHypothesis (leads_takeUp leads occurrence rfl
        (standsFor_firstField required typed) fun _ _ _ stands => stands.merged _ _)
      rwa [List.append_assoc] at further

/-- A run that starts from nothing keeps track of its occurrences. -/
theorem TakesUp.tracks {occurrences : List Occurrence}
    (run : index.TakesUp start parent required occurrences {} table) :
    index.Tracks start parent occurrences table :=
  tracks_of_leads (run.leads (OrderedTable.leads_empty _ _))

/-! ## Records -/

/-- The occurrence that a field of a record of `node` represents. -/
inductive Represents (index : SchemaIndex) (node : SchemaNode) (fields : List FieldDefinition)
    (field : FieldDefinition) : Occurrence → Prop where
  | first {occurrence : Occurrence} (found : (index.occurrences node).find?
      (fun other => other.name = field.name) = some occurrence) :
      Represents index node fields field occurrence
  | alternative {variant : Variant} (paired : (variant, field) ∈ (Variant.ofNode node).zip fields) :
      Represents index node fields field (.alternative variant)

/-- Each field of what a node is built into stands for an occurrence. -/
theorem Defines.represents {trail : List String} {name : String} {node : SchemaNode}
    {definition : TypeDefinition}
    (reached : index.Descends start ⟨trail, name, .inline node⟩)
    (defines : index.Defines trail name node definition) :
    ∀ field ∈ definition.fields, ∃ occurrence,
      index.Represents node definition.fields field occurrence ∧
        index.StandsFor start name field occurrence := by
  cases defines with
  | enumeration found =>
      obtain ⟨-, -, rfl⟩ := SchemaNode.enumeration?_eq_some_iff.1 found
      intro field member
      cases member
  | union _ built =>
      obtain ⟨fields, made, rfl⟩ := exists_of_map_eq_ok built
      intro field member
      obtain ⟨variant, paired, outcome⟩ := exists_of_mem_mapM_ok made field member
      obtain ⟨type, typed, rfl⟩ := variantField_eq_ok_iff.1 outcome
      have met : index.Types start name (.alternative variant) type :=
        .alternative made member typed
      exact ⟨.alternative variant, .alternative paired, standsFor_firstField [] met⟩
  | record _ _ _ contributed inherited =>
      have tracks := (takesUp_record reached contributed inherited).tracks
      intro field member
      obtain ⟨key, stored⟩ := OrderedTable.exists_find?_of_mem_values member
      obtain ⟨occurrence, first, stands⟩ := tracks.first key field stored
      have own : occurrence.name = key := by simpa using List.find?_some first
      have same : key = field.name := own.symm.trans stands.named.symm
      subst same
      exact ⟨occurrence, .first first, stands⟩
  | mapping | transparent | distinct =>
      intro field member
      cases member

end SchemaIndex

end SchemaCompiler
