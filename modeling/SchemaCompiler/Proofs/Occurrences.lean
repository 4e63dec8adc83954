import SchemaCompiler.Proofs.Account
import SchemaCompiler.Proofs.FirstOfEachKey

/-!
Contract: flattening as a run over a list of occurrences.

Owns:
- `Occurrence`, a property or an alternative that a record is made of, and
  `SchemaIndex.occurrences`, those of a node and then of its parents in order;
- `SchemaIndex.takeUp`, what one occurrence of a known type does to a table of
  fields: `leads_takeUp` says how a table stays led by the occurrences so far;
- `SchemaIndex.TakesUp`, a run over a list of occurrences;
- `takesUp_record`: the table of a flattened record is such a run over the
  occurrences of the node, and each of them is met below the site of the node.

The recursion through properties, alternatives and parents is taken apart here
once. What is true of tables follows by induction over the run.

Does not own: any statement about tables (`SchemaCompiler.Proofs.Flattening`).
-/

namespace SchemaCompiler

/-! ## Occurrences -/

/-- What a flattened record takes up at one place: a property with its schema,
or an alternative of a union without properties. -/
inductive Occurrence where
  | property (name : String) (schema : Schema)
  | alternative (variant : Variant)

namespace Occurrence

/-- The name that the field of an occurrence stands under. -/
def name : Occurrence → String
  | .property name _ => name
  | .alternative variant => variant.name

def schema : Occurrence → Schema
  | .property _ schema => schema
  | .alternative variant => variant.member

end Occurrence

theorem Variant.ofNode_of_not_isUnion {node : SchemaNode} (single : ¬ node.isUnion = true) :
    Variant.ofNode node = [] := by
  have members : node.unionMembers = [] := by
    simp only [SchemaNode.isUnion, Bool.or_eq_true, Bool.not_eq_true', not_or,
      Bool.not_eq_false, List.isEmpty_iff] at single
    simp [SchemaNode.unionMembers, single]
  rw [Variant.ofNode, members, Variant.named]

/-- The occurrences that a node adds by itself. -/
def SchemaNode.occurrences (node : SchemaNode) : List Occurrence :=
  if node.hasProperties then node.properties.map fun entry => .property entry.1 entry.2
  else (Variant.ofNode node).map .alternative

/-- A node adds its properties and nothing else, unless it is a union without
any. -/
theorem SchemaNode.occurrences_of_unfolded {node : SchemaNode}
    (unfolded : node.isUnion = true → node.hasProperties = true) :
    node.occurrences = node.properties.map fun entry => .property entry.1 entry.2 := by
  rw [occurrences]
  split
  · rfl
  · rename_i bare
    have nothing : node.properties = [] := by
      simpa [SchemaNode.hasProperties] using bare
    rw [nothing, Variant.ofNode_of_not_isUnion fun union => bare (unfolded union)]
    rfl

namespace SchemaIndex

open Minting

/-- The occurrences that the schemas of a list add, references being followed. -/
def occurrencesOf (index : SchemaIndex) (members : List Schema) : List Occurrence :=
  (members.filterMap index.nodeOf).flatMap SchemaNode.occurrences

/-- The occurrences that a record is flattened from, those of the node before
those of its parents. -/
def occurrences (index : SchemaIndex) (node : SchemaNode) : List Occurrence :=
  node.occurrences ++ index.occurrencesOf node.allOf

/-- The optional field of an alternative whose type is known. -/
def alternativeField (index : SchemaIndex) (variant : Variant) (type : TypeExpr) :
    FieldDefinition :=
  { name := variant.name
    exportedName := variant.exportedName
    type := type.makeOptional
    optional := true
    tag := ⟨Naming.lowerCamel variant.exportedName, true⟩
    description := (index.nodeOf variant.member).bind SchemaNode.normalDescription
    default := none
    annotate := index.isAnnotatable variant.member }

theorem variantField_eq_ok_iff {index : SchemaIndex} {trail : List String} {variant : Variant}
    {field : FieldDefinition} :
    index.variantField trail variant = .ok field ↔
      ∃ type, index.typeOf trail true variant.member = .ok type ∧
        index.alternativeField variant type = field := by
  constructor
  · exact exists_of_map_eq_ok
  · rintro ⟨type, typed, rfl⟩
    rw [variantField, typed]
    rfl

/-! ## Runs -/

/-- Takes up an occurrence: a property is merged with the field of its name, and
an alternative gives way to it. -/
def takeUp (index : SchemaIndex) (required : List String) (table : FieldTable)
    (occurrence : Occurrence) (type : TypeExpr) : FieldTable :=
  match occurrence with
  | .property name schema =>
      index.withProperty table name schema type (!required.contains name)
  | .alternative variant =>
      if table.has variant.name then table
      else table.insert variant.name (index.alternativeField variant type)

/-- The field of an occurrence that is the first of its name. -/
def firstField (index : SchemaIndex) (required : List String) (occurrence : Occurrence)
    (type : TypeExpr) : FieldDefinition :=
  match occurrence with
  | .property name schema => index.propertyField name schema type (!required.contains name)
  | .alternative variant => index.alternativeField variant type

/-- A table is led by one more occurrence if its first field is made from it and
if merging leaves a field made from the same occurrence as before. -/
theorem leads_takeUp {Item : Type} {name : Item → String} {made : Item → FieldDefinition → Prop}
    {index : SchemaIndex} {required : List String} {seen : List Item} {table : FieldTable}
    {occurrence : Occurrence} {type : TypeExpr} (leads : table.Leads name made seen) (item : Item)
    (named : name item = occurrence.name)
    (fresh : made item (index.firstField required occurrence type))
    (merged : ∀ first field, name first = occurrence.name → made first field →
      made first (FieldTable.merged field occurrence.name (!required.contains occurrence.name))) :
    (index.takeUp required table occurrence type).Leads name made (seen ++ [item]) := by
  cases occurrence with
  | property property schema =>
      change OrderedTable.Leads _ _ _
        (index.withProperty table property schema type (!required.contains property))
      have key : name item = property := named
      subst key
      unfold withProperty
      split
      · rename_i old stored
        exact leads.replace item stored fun first same => merged first old same
      · rename_i missing
        exact leads.fresh item (OrderedTable.not_mem_keys_of_find? missing) fresh
  | alternative variant =>
      change OrderedTable.Leads _ _ _ (if table.has variant.name then table
        else table.insert variant.name (index.alternativeField variant type))
      have key : name item = variant.name := named
      rw [← key]
      split
      · rename_i present
        exact leads.known item (Entries.has_iff_mem_keys.1 present)
      · rename_i new
        exact leads.fresh item (fun present => new (Entries.has_iff_mem_keys.2 present)) fresh

/-- The type that an occurrence is met with in the flattening of `parent` below
`start`. An alternative is typed together with the others of its union. -/
inductive Types (index : SchemaIndex) (start : Site) (parent : String) :
    Occurrence → TypeExpr → Prop where
  | property {trail : List String} {name : String} {schema : Schema} {type : TypeExpr}
      (reached : index.Descends start ⟨trail, parent, schema⟩)
      (typed : Yields (index.propertyType trail parent name schema) type) :
      Types index start parent (.property name schema) type
  | alternative {trail : List String} {source : SchemaNode} {fields : List FieldDefinition}
      {variant : Variant} {type : TypeExpr}
      (made : index.unionFields trail source = .ok fields)
      (listed : index.alternativeField variant type ∈ fields)
      (typed : index.typeOf trail true variant.member = .ok type) :
      Types index start parent (.alternative variant) type

/-- The table grows to the second one when the occurrences are taken up in
order. -/
inductive TakesUp (index : SchemaIndex) (start : Site) (parent : String)
    (required : List String) : List Occurrence → FieldTable → FieldTable → Prop where
  | done {table : FieldTable} : TakesUp index start parent required [] table table
  | next {occurrence : Occurrence} {rest : List Occurrence} {type : TypeExpr}
      {table extended : FieldTable} (typed : index.Types start parent occurrence type)
      (others : TakesUp index start parent required rest
        (index.takeUp required table occurrence type) extended) :
      TakesUp index start parent required (occurrence :: rest) table extended

variable {index : SchemaIndex} {start : Site} {parent : String} {required trail : List String}
  {table extended : FieldTable}

theorem TakesUp.append {left right : List Occurrence} {between : FieldTable}
    (first : index.TakesUp start parent required left table between)
    (second : index.TakesUp start parent required right between extended) :
    index.TakesUp start parent required (left ++ right) table extended := by
  induction first with
  | done => exact second
  | next typed _ inductionHypothesis => exact .next typed (inductionHypothesis second)

/-! ## Flattening is such a run -/

theorem takesUp_alternatives {source : SchemaNode} {fields : List FieldDefinition}
    (made : index.unionFields trail source = .ok fields) (table : FieldTable) :
    index.TakesUp start parent required ((Variant.ofNode source).map .alternative) table
      (table.addAbsent fields) := by
  have each : ∀ {variants : List Variant} {chosen : List FieldDefinition},
      List.Forall₂ (fun variant field => index.variantField trail variant = .ok field)
        variants chosen → (∀ field ∈ chosen, field ∈ fields) → ∀ other : FieldTable,
          index.TakesUp start parent required (variants.map .alternative) other
            (other.addAbsent chosen) := by
    intro variants chosen paired
    induction paired with
    | nil => exact fun _ _ => .done
    | cons head _ inductionHypothesis =>
        intro offered other
        obtain ⟨type, typed, rfl⟩ := variantField_eq_ok_iff.1 head
        have listed := offered _ List.mem_cons_self
        have rest := inductionHypothesis fun field member =>
          offered field (List.mem_cons_of_mem _ member)
        exact .next (.alternative made listed typed) (rest _)
  exact each (forall₂_of_mapM_ok made) (fun _ member => member) table

theorem takesUp_properties {declared : List (String × Schema)}
    (reached : ∀ entry ∈ declared, index.Descends start ⟨trail, parent, entry.2⟩)
    (yields : Yields (index.properties trail parent required declared table) extended) :
    index.TakesUp start parent required
      (declared.map fun entry => .property entry.1 entry.2) table extended := by
  induction declared generalizing table with
  | nil =>
      rw [properties] at yields
      exact eq_of_yields_pure yields ▸ .done
  | cons entry rest inductionHypothesis =>
      obtain ⟨property, schema⟩ := entry
      rw [properties] at yields
      obtain ⟨type, typed, others⟩ := yields.of_bind
      have below : index.Descends start ⟨trail, parent, schema⟩ := reached _ List.mem_cons_self
      refine .next (.property below typed) (inductionHypothesis ?_ others)
      exact fun entry member => reached entry (List.mem_cons_of_mem _ member)

theorem takesUp_contribution {source : SchemaNode}
    (reached : index.Descends start ⟨trail, parent, .inline source⟩)
    (yields : Yields (index.contribution trail parent required source table) extended) :
    index.TakesUp start parent required source.occurrences table extended := by
  rw [contribution] at yields
  unfold SchemaNode.occurrences
  split at yields
  · rename_i declares
    rw [if_pos declares]
    exact takesUp_properties (fun _ member => .part reached (.property member)) yields
  · rename_i bare
    rw [if_neg bare]
    split at yields
    · obtain ⟨fields, made, rest⟩ := yields.of_bind
      rw [← eq_of_yields_pure rest]
      exact takesUp_alternatives (eq_of_yields_ofExcept made) table
    · rename_i single
      rw [Variant.ofNode_of_not_isUnion single, List.map_nil]
      exact eq_of_yields_pure yields ▸ .done

theorem takesUp_parents {node : SchemaNode} {members : List Schema}
    (reached : index.Descends start ⟨trail, parent, .inline node⟩)
    (declared : ∀ member ∈ members, member ∈ node.allOf)
    (yields : Yields (index.parents trail parent required members table) extended) :
    index.TakesUp start parent required (index.occurrencesOf members) table extended := by
  induction members generalizing table with
  | nil =>
      rw [parents] at yields
      exact eq_of_yields_pure yields ▸ .done
  | cons member rest inductionHypothesis =>
      have below : index.Descends start ⟨trail, parent, member⟩ :=
        .part reached (.allOf (declared member List.mem_cons_self))
      have others : ∀ {table : FieldTable},
          Yields (index.parents trail parent required rest table) extended →
            index.TakesUp start parent required (index.occurrencesOf rest) table extended :=
        inductionHypothesis fun other listed => declared other (List.mem_cons_of_mem _ listed)
      have resolved : ∀ node : SchemaNode, index.nodeOf member = some node →
          index.occurrencesOf (member :: rest) =
            node.occurrences ++ index.occurrencesOf rest := by
        intro node found
        rw [occurrencesOf, List.filterMap_cons_some found, List.flatMap_cons]
        rfl
      cases member with
      | inline source =>
          rw [parents] at yields
          obtain ⟨added, own, further⟩ := yields.of_bind
          rw [resolved source rfl]
          exact (takesUp_contribution below own).append (others further)
      | reference target =>
          cases found : index.lookup target.schemaName with
          | none =>
              have missing : index.nodeOf (.reference target) = none := found
              rw [parents_of_missing parent required rest table found] at yields
              rw [occurrencesOf, List.filterMap_cons_none missing]
              exact others yields
          | some source =>
              by_cases visited : target.schemaName ∈ trail
              · rw [parents_of_looped parent required rest table found visited] at yields
                obtain ⟨_, thrown⟩ := yields
                cases thrown
              · rw [parents_of_fresh parent required rest table found visited] at yields
                obtain ⟨added, own, further⟩ := yields.of_bind
                rw [resolved source found]
                exact (takesUp_contribution (.target below found visited) own).append
                  (others further)

/-- The table of a flattened record comes of taking up the occurrences of its
node in order. -/
theorem takesUp_record {node : SchemaNode} {own : FieldTable}
    (reached : index.Descends start ⟨trail, parent, .inline node⟩)
    (contributed : Yields (index.contribution trail parent required node {}) own)
    (inherited : Yields (index.parents trail parent required node.allOf own) table) :
    index.TakesUp start parent required (index.occurrences node) {} table :=
  (takesUp_contribution reached contributed).append
    (takesUp_parents reached (fun _ member => member) inherited)

end SchemaIndex

end SchemaCompiler
