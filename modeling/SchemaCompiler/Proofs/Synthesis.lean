import SchemaCompiler.Proofs.Account

/-!
Contract: the accounts of the synthesis.

Owns:
- `FieldTable.namedLeaves`, the names that the fields of a table mention, and
  what adding fields does to them;
- one account for each function that mints: `propertyType_accounts`,
  `recordDefinition_accounts`, `contribution_accounts`, `properties_accounts`
  and `parents_accounts`, in one recursion on the measure of the functions;
- `namedDefinition_accounts`, the account of building one named schema, and
  what is built.

Does not own: what follows for a whole run over an index.
-/

namespace SchemaCompiler

/-! ## Field tables -/

namespace FieldTable

/-- The names that the fields of a table mention. -/
def namedLeaves (table : FieldTable) : List String :=
  table.values.flatMap fun field => field.type.namedLeaves

theorem mem_namedLeaves_insert {table : FieldTable} {name leaf : String} {field : FieldDefinition}
    (member : leaf ∈ namedLeaves (table.insert name field)) :
    leaf ∈ table.namedLeaves ∨ leaf ∈ field.type.namedLeaves := by
  obtain ⟨other, inserted, mentioned⟩ := List.mem_flatMap.1 member
  rcases OrderedTable.mem_values_insert inserted with same | old
  · exact Or.inr (same ▸ mentioned)
  · exact Or.inl (List.mem_flatMap.2 ⟨other, old, mentioned⟩)

theorem mem_namedLeaves_addAbsent {table : FieldTable} {fields : List FieldDefinition}
    {leaf : String} (member : leaf ∈ (table.addAbsent fields).namedLeaves) :
    leaf ∈ table.namedLeaves ++ fields.flatMap fun field => field.type.namedLeaves := by
  induction fields generalizing table with
  | nil => simpa [addAbsent] using member
  | cons head tail inductionHypothesis =>
      rw [List.flatMap_cons, List.mem_append, List.mem_append]
      rcases List.mem_append.1 (inductionHypothesis member) with inTable | inTail
      · simp only at inTable
        split at inTable
        · exact Or.inl inTable
        · rcases mem_namedLeaves_insert inTable with old | new
          · exact Or.inl old
          · exact Or.inr (Or.inl new)
      · exact Or.inr (Or.inr inTail)

end FieldTable

namespace SchemaIndex

open Minting

variable {index : SchemaIndex} {start : Site}

theorem mem_namedLeaves_withProperty {table : FieldTable} {property leaf : String}
    {schema : Schema} {type : TypeExpr} {optional : Bool}
    (member : leaf ∈ (index.withProperty table property schema type optional).namedLeaves) :
    leaf ∈ table.namedLeaves ++ type.namedLeaves := by
  rw [List.mem_append]
  unfold withProperty at member
  split at member
  · rename_i field found
    rcases FieldTable.mem_namedLeaves_insert member with old | merged
    · exact Or.inl old
    · refine Or.inl (List.mem_flatMap.2 ⟨field, OrderedTable.mem_values_of_find? found, ?_⟩)
      simp only [FieldTable.merged] at merged
      split at merged
      · exact merged
      · simpa using merged
  · rcases FieldTable.mem_namedLeaves_insert member with old | new
    · exact Or.inl old
    · simp only [propertyField] at new
      split at new
      · exact Or.inr (by simpa using new)
      · exact Or.inr new

/-! ## The induction over the synthesis -/

mutual

theorem propertyType_accounts {trail : List String} {parent : String} (property : String)
    {schema : Schema} (reached : index.Descends start ⟨trail, parent, schema⟩) :
    index.Accounts start [] TypeExpr.namedLeaves
      (index.propertyType trail parent property schema) := by
  cases schema with
  | reference target =>
      rw [propertyType]
      exact (typeOf_explained reached true).accounts
  | inline node =>
      rw [propertyType]
      split
      · rename_i target sole
        have direct := SchemaNode.hasPart_of_soleParentReference sole
        exact (typeOf_explained (.part reached direct) true).accounts
      · simp only
        split
        · rename_i definition enumerated
          have below : index.MintedBelow start definition :=
            .intro property reached (.enumeration enumerated)
          exact (accounts_remember below).weaken (by
            simp [SchemaNode.namedLeaves_of_enumeration enumerated])
        · rename_i unlisted
          split
          · apply (unionDefinition_explained reached _).accounts.bind
            intro definition built
            have made := Minting.eq_of_yields_ofExcept built
            exact accounts_remember (.intro property reached (.union unlisted made))
          · split
            · apply (recordDefinition_accounts (.helper property reached)).bind
              intro definition built
              exact accounts_remember (.intro property reached (.record built))
            · exact (typeOf_explained reached true).accounts
termination_by (index.freshCount trail, sizeOf schema, 0)

theorem recordDefinition_accounts {trail : List String} {name : String} {node : SchemaNode}
    (reached : index.Descends start ⟨trail, name, .inline node⟩) :
    index.Accounts start [] TypeDefinition.namedLeaves
      (index.recordDefinition trail name node) := by
  rw [recordDefinition]
  split
  · rename_i definition enumerated
    exact accounts_pure (by simp [SchemaNode.namedLeaves_of_enumeration enumerated])
  · apply (mapAlias_explained reached).accounts.bind
    intro target _
    split
    · exact accounts_pure (by simp)
    · split
      · apply (typeOf_explained reached false).accounts.bind
        intro type _
        split
        · exact accounts_pure (by simp)
        · exact accounts_pure (by simp)
      · have own : index.Accounts start [] FieldTable.namedLeaves _ :=
          contribution_accounts name (index.requiredNames node) {} reached
        apply own.bind
        intro table _
        -- The measure needs this: the parents are looked at under the same trail.
        have := sizeOf_allOf_lt node
        have each : ∀ member ∈ node.allOf, index.Descends start ⟨trail, name, member⟩ :=
          fun member listed => .part reached (.allOf listed)
        apply (parents_accounts name (index.requiredNames node) table each).bind
        intro merged _
        exact accounts_pure fun leaf member => by
          rwa [TypeDefinition.namedLeaves_record] at member
termination_by (index.freshCount trail, sizeOf node, 2)

theorem contribution_accounts {trail : List String} (parent : String) (required : List String)
    {source : SchemaNode} (table : FieldTable)
    (reached : index.Descends start ⟨trail, parent, .inline source⟩) :
    index.Accounts start table.namedLeaves FieldTable.namedLeaves
      (index.contribution trail parent required source table) := by
  rw [contribution]
  split
  · have := sizeOf_properties_lt source
    exact properties_accounts parent required table fun entry listed =>
      .part reached (.property listed)
  · split
    · apply ((unionFields_explained reached).accounts.keeping table.namedLeaves).bind
      intro fields _
      exact accounts_pure fun leaf member => FieldTable.mem_namedLeaves_addAbsent member
    · exact accounts_pure fun leaf member => member
termination_by (index.freshCount trail, sizeOf source, 1)

theorem properties_accounts {trail : List String} (parent : String) (required : List String)
    {declared : List (String × Schema)} (table : FieldTable)
    (reached : ∀ entry ∈ declared, index.Descends start ⟨trail, parent, entry.2⟩) :
    index.Accounts start table.namedLeaves FieldTable.namedLeaves
      (index.properties trail parent required declared table) := by
  match declared, reached with
  | [], _ =>
      rw [properties]
      exact accounts_pure fun leaf member => member
  | (property, schema) :: rest, reached =>
      rw [properties]
      have first := propertyType_accounts property (reached (property, schema) (by simp))
      apply (first.keeping table.namedLeaves).bind
      intro type _
      have others := properties_accounts parent required
        (index.withProperty table property schema type (!required.contains property))
        fun entry listed => reached entry (List.mem_cons_of_mem _ listed)
      exact others.weaken fun leaf member => mem_namedLeaves_withProperty member
termination_by (index.freshCount trail, sizeOf declared, 0)

theorem parents_accounts {trail : List String} (parent : String) (required : List String)
    {members : List Schema} (table : FieldTable)
    (reached : ∀ member ∈ members, index.Descends start ⟨trail, parent, member⟩) :
    index.Accounts start table.namedLeaves FieldTable.namedLeaves
      (index.parents trail parent required members table) := by
  cases members with
  | nil =>
      rw [parents]
      exact accounts_pure fun leaf member => member
  | cons member rest =>
      have atMember := reached member (by simp)
      have others : ∀ other ∈ rest, index.Descends start ⟨trail, parent, other⟩ :=
        fun other listed => reached other (by simp [listed])
      cases member with
      | inline node =>
          rw [parents]
          apply (contribution_accounts parent required table atMember).bind
          intro extended _
          exact parents_accounts parent required extended others
      | reference target =>
          cases found : index.lookup target.schemaName with
          | none =>
              rw [parents_of_missing parent required rest table found]
              exact parents_accounts parent required table others
          | some node =>
              by_cases visited : target.schemaName ∈ trail
              · rw [parents_of_looped parent required rest table found visited]
                exact accounts_throw (.again atMember visited)
              · rw [parents_of_fresh parent required rest table found visited]
                -- The node may be of any size: the trail pays for it with a declared name.
                have := freshCount_append_lt (mem_names_of_lookup found) visited
                apply (contribution_accounts parent required table
                  (.target atMember found visited)).bind
                intro extended _
                exact parents_accounts parent required extended others
termination_by (index.freshCount trail, sizeOf members, 0)

end

/-! ## Named schemas -/

theorem namedDefinition_accounts {trail : List String} {name : String} {node : SchemaNode}
    (reached : index.Descends start ⟨trail, name, .inline node⟩) :
    index.Accounts start [] TypeDefinition.namedLeaves
      (Synthesizer.namedDefinition index trail name node) := by
  unfold Synthesizer.namedDefinition
  split
  · rename_i definition enumerated
    exact accounts_pure (by simp [SchemaNode.namedLeaves_of_enumeration enumerated])
  · apply (mapAlias_explained reached).accounts.bind
    intro target _
    split
    · exact accounts_pure (by simp)
    · split
      · exact (unionDefinition_explained reached name).accounts
      · exact recordDefinition_accounts reached

theorem defines_of_namedDefinition {trail : List String} {name : String} {node : SchemaNode}
    {definition : TypeDefinition}
    (built : Yields (Synthesizer.namedDefinition index trail name node) definition) :
    index.Defines trail name node definition := by
  unfold Synthesizer.namedDefinition at built
  split at built
  · rename_i enumeration found
    exact .enumeration (eq_of_yields_pure built ▸ found)
  · rename_i unlisted
    obtain ⟨aliased, mapped, rest⟩ := built.of_bind
    split at rest
    · exact eq_of_yields_pure rest ▸ .mapping unlisted (eq_of_yields_ofExcept mapped)
    · split at rest
      · exact .union unlisted (eq_of_yields_ofExcept rest)
      · exact defines_of_recordDefinition rest

end SchemaIndex

end SchemaCompiler
