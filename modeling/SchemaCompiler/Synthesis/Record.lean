import SchemaCompiler.Synthesis.Union

/-!
Contract: object schemas flattened into records.

Owns:
- `Minting`, computations that may add helper types and may fail with a cycle,
  the helpers added before a failure being kept;
- `SchemaIndex.propertyType`, which mints a helper type for an inline
  enumeration or composition;
- `SchemaIndex.recordDefinition`, which collects the properties of a node and
  then of each parent in order, references being followed one level.

A property that arrives from several sources is optional only if every source
leaves it optional. A parent that is a union without properties contributes its
alternatives as optional fields.

Does not own: discarding the helpers of a failed schema
(`SchemaCompiler.Synthesis.Synthesizer`).
-/

namespace SchemaCompiler

/-- Helper types by name, in the order in which they were minted. -/
abbrev HelperTable := OrderedTable TypeDefinition

/-- A computation that may mint helper types and may meet a reference cycle. -/
abbrev Minting (α : Type) := ExceptT ReferenceCycle (StateM HelperTable) α

namespace Minting

/-- A result that mints nothing. -/
def ofExcept {α : Type} (result : Except ReferenceCycle α) : Minting α :=
  ExceptT.mk (pure result)

/-- Keeps a helper type under its name and gives the name. The first definition
of a name stays. -/
def remember (definition : TypeDefinition) : Minting String := do
  let helpers ← get
  if !helpers.has definition.name then
    set (helpers.insert definition.name definition)
  return definition.name

end Minting

/-- Record fields under construction, by property name. -/
abbrev FieldTable := OrderedTable FieldDefinition

namespace FieldTable

/-- Combines a field with a further occurrence of its property: the field stays
optional only if the occurrence is, and a required field loses its optional
layer. -/
def merged (field : FieldDefinition) (property : String) (optional : Bool) : FieldDefinition :=
  let both := field.optional && optional
  { field with
    optional := both
    type := if both then field.type else field.type.stripOptional
    tag := ⟨property, both⟩ }

/-- Adds the fields whose names are not there yet. -/
def addAbsent (table : FieldTable) (fields : List FieldDefinition) : FieldTable :=
  fields.foldl (fun table field =>
    if table.has field.name then table else table.insert field.name field) table

end FieldTable

namespace SchemaIndex

/-- The canonical names of all declared schemas, which no helper type takes. -/
def reservedNames (index : SchemaIndex) : List String :=
  index.names.map Naming.exportedName

/-- The name of the helper type for a property: the derived name, numbered when
a declared schema has it. -/
def helperName (index : SchemaIndex) (parent property : String) : String :=
  Naming.firstFree index.reservedNames (Naming.helperName parent property)

/-- The names that a node or one of its parents requires. -/
def requiredNames (index : SchemaIndex) (node : SchemaNode) : List String :=
  node.required ++ (node.allOf.filterMap index.nodeOf).flatMap SchemaNode.required

/-- The field of a property at its first occurrence. -/
def propertyField (index : SchemaIndex) (property : String) (schema : Schema) (type : TypeExpr)
    (optional : Bool) : FieldDefinition :=
  { name := property
    exportedName := Naming.exportedName property
    type := if optional then type.makeOptional else type
    optional := optional
    tag := ⟨property, optional⟩
    description := index.descriptionOf schema
    default := index.defaultOf schema
    annotate := index.isAnnotatable schema }

/-- Takes up one occurrence of a property. -/
def withProperty (index : SchemaIndex) (table : FieldTable) (property : String) (schema : Schema)
    (type : TypeExpr) (optional : Bool) : FieldTable :=
  match table.find? property with
  | some field => table.insert property (FieldTable.merged field property optional)
  | none => table.insert property (index.propertyField property schema type optional)

theorem sizeOf_properties_lt (node : SchemaNode) :
    sizeOf node.properties < sizeOf node := by
  cases node
  simp only [SchemaNode.mk.sizeOf_spec]
  omega

theorem sizeOf_allOf_lt (node : SchemaNode) : sizeOf node.allOf < sizeOf node := by
  cases node
  simp only [SchemaNode.mk.sizeOf_spec]
  omega

mutual

/-- The type of a property of `parent`. An inline enumeration or composition
gets a helper type; a node whose only parent is a reference is typed like that
reference. -/
def propertyType (index : SchemaIndex) (trail : List String) (parent property : String)
    (schema : Schema) : Minting TypeExpr :=
  match schema with
  | .reference target => Minting.ofExcept (index.typeOf trail true (.reference target))
  | .inline node =>
      match node.soleParentReference? with
      | some target => Minting.ofExcept (index.typeOf trail true (.reference target))
      | none =>
          let helper := index.helperName parent property
          match node.enumeration? helper with
          | some definition => .named <$> Minting.remember definition
          | none =>
              if node.isUnion then do
                let definition ← Minting.ofExcept (index.unionDefinition trail helper node)
                .named <$> Minting.remember definition
              else if node.isComposite then do
                let definition ← recordDefinition index trail helper node
                .named <$> Minting.remember definition
              else Minting.ofExcept (index.typeOf trail true (.inline node))
termination_by (index.freshCount trail, sizeOf schema, 0)

/-- The definition of a node called `name`: an enumeration, a mapping alias, an
alias of its own type when there is nothing to flatten, or a record. -/
def recordDefinition (index : SchemaIndex) (trail : List String) (name : String)
    (node : SchemaNode) : Minting TypeDefinition :=
  match node.enumeration? name with
  | some definition => return definition
  | none => do
      let typeName := Naming.exportedName name
      match ← Minting.ofExcept (index.mapAlias trail node) with
      | some target => return .transparentAlias typeName target
      | none =>
          if node.isEmptySchema then
            let target ← Minting.ofExcept (index.typeOf trail false (.inline node))
            match node.normalDescription with
            | some description => return .distinctAlias typeName target description
            | none => return .transparentAlias typeName target
          else
            let required := index.requiredNames node
            let own ← contribution index trail name required node {}
            have := sizeOf_allOf_lt node
            let table ← parents index trail name required node.allOf own
            return .record typeName node.normalDescription table.values
termination_by (index.freshCount trail, sizeOf node, 2)

/-- The fields that a source node adds: its properties, or the alternatives of
a union that has none. -/
def contribution (index : SchemaIndex) (trail : List String) (parent : String)
    (required : List String) (source : SchemaNode) (table : FieldTable) : Minting FieldTable :=
  if source.hasProperties then
    have := sizeOf_properties_lt source
    properties index trail parent required source.properties table
  else if source.isUnion then do
    let fields ← Minting.ofExcept (index.unionFields trail source)
    return table.addAbsent fields
  else return table
termination_by (index.freshCount trail, sizeOf source, 1)

/-- The fields that a list of properties adds, in order. Every occurrence is
typed, and only the first one decides the type of the field. -/
def properties (index : SchemaIndex) (trail : List String) (parent : String)
    (required : List String) (declared : List (String × Schema)) (table : FieldTable) :
    Minting FieldTable :=
  match declared with
  | [] => return table
  | (property, schema) :: rest => do
      let type ← propertyType index trail parent property schema
      let optional := !required.contains property
      properties index trail parent required rest
        (index.withProperty table property schema type optional)
termination_by (index.freshCount trail, sizeOf declared, 0)

/-- The fields that a list of parents adds, in order. A reference to a declared
schema steps onto its name; one that does not resolve adds nothing. -/
def parents (index : SchemaIndex) (trail : List String) (parent : String)
    (required : List String) (members : List Schema) (table : FieldTable) : Minting FieldTable :=
  match members with
  | [] => return table
  | .inline node :: rest => do
      let extended ← contribution index trail parent required node table
      parents index trail parent required rest extended
  | .reference target :: rest =>
      let name := target.schemaName
      match found : index.lookup name with
      | none => parents index trail parent required rest table
      | some node =>
          if looped : name ∈ trail then throw ⟨trail ++ [name]⟩
          else do
            have := freshCount_append_lt (mem_names_of_lookup found) looped
            let extended ← contribution index (trail ++ [name]) parent required node table
            parents index trail parent required rest extended
termination_by (index.freshCount trail, sizeOf members, 0)

end

/-! ## A parent that is a reference -/

variable {index : SchemaIndex} {trail : List String} {target : Reference} (parent : String)
  (required : List String) (rest : List Schema) (table : FieldTable)

theorem parents_of_missing (missing : index.lookup target.schemaName = none) :
    index.parents trail parent required (.reference target :: rest) table =
      index.parents trail parent required rest table := by
  rw [parents]
  split
  · rfl
  · rename_i node found
    rw [missing] at found
    cases found

theorem parents_of_looped {node : SchemaNode} (found : index.lookup target.schemaName = some node)
    (looped : target.schemaName ∈ trail) :
    index.parents trail parent required (.reference target :: rest) table =
      throw ⟨trail ++ [target.schemaName]⟩ := by
  rw [parents]
  split
  · rename_i missing
    rw [missing] at found
    cases found
  · rw [dif_pos looped]

theorem parents_of_fresh {node : SchemaNode} (found : index.lookup target.schemaName = some node)
    (fresh : target.schemaName ∉ trail) :
    index.parents trail parent required (.reference target :: rest) table = (do
      let extended ←
        contribution index (trail ++ [target.schemaName]) parent required node table
      index.parents trail parent required rest extended) := by
  rw [parents]
  split
  · rename_i missing
    rw [missing] at found
    cases found
  · rename_i other same
    rw [found] at same
    cases same
    rw [dif_neg fresh]

end SchemaIndex

end SchemaCompiler
