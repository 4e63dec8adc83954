import SchemaCompiler.Synthesis.Synthesizer

/-!
Contract: where resolution can get to.

Owns:
- `SchemaNode.HasPart` and `Schema.Occurs`, the inline tree of a schema;
- `Site`, a schema together with the trail and the parent name it is resolved
  under, and `SchemaIndex.Descends`, the moves from one site to another: into a
  part of an inline node, through a reference onto the trail, and to the helper
  name of a property;
- `SchemaIndex.Loops`, the cycles that are met below a site.

References that are typed by name alone are no move. Every recursive call of
the synthesis is one of the three moves or stays where it is, so a fact that
the moves keep holds wherever a run gets to.

Does not own: that a run makes no other move (`SchemaCompiler.Proofs.Account`).
-/

namespace SchemaCompiler

/-! ## The inline tree -/

/-- A schema written directly inside a node. -/
inductive SchemaNode.HasPart (node : SchemaNode) : Schema → Prop where
  | property {name : String} {schema : Schema} (declared : (name, schema) ∈ node.properties) :
      HasPart node schema
  | items {schema : Schema} (declared : node.items = some schema) : HasPart node schema
  | additionalProperties {schema : Schema}
      (declared : node.additionalProperties = some (.schema schema)) : HasPart node schema
  | allOf {schema : Schema} (member : schema ∈ node.allOf) : HasPart node schema
  | anyOf {schema : Schema} (member : schema ∈ node.anyOf) : HasPart node schema
  | oneOf {schema : Schema} (member : schema ∈ node.oneOf) : HasPart node schema

/-- The schemas in the inline tree of `whole`, at any depth. -/
inductive Schema.Occurs (whole : Schema) : Schema → Prop where
  | whole : Occurs whole whole
  | part {node : SchemaNode} {schema : Schema} (inside : Occurs whole (.inline node))
      (direct : node.HasPart schema) : Occurs whole schema

namespace SchemaNode

theorem hasPart_of_soleParent {node : SchemaNode} {parent : Schema}
    (sole : node.soleParent? = some parent) : node.HasPart parent := by
  unfold soleParent? at sole
  split at sole
  · rename_i only same
    split at sole
    · cases sole
    · cases sole
      exact .allOf (by simp [same])
  · cases sole

theorem hasPart_of_soleParentReference {node : SchemaNode} {target : Reference}
    (sole : node.soleParentReference? = some target) : node.HasPart (.reference target) := by
  unfold soleParentReference? at sole
  split at sole
  · rename_i found
    cases sole
    exact hasPart_of_soleParent found
  · cases sole

theorem hasPart_of_unionMembers {node : SchemaNode} {member : Schema}
    (listed : member ∈ node.unionMembers) : node.HasPart member := by
  unfold unionMembers at listed
  split at listed
  · exact .oneOf listed
  · exact .anyOf listed

private theorem hasPart_of_mapOutline {node : SchemaNode} {outline : Outline} {part : Schema}
    (shape : node.mapOutline? = some outline) (depends : outline.part? = some part) :
    node.HasPart part := by
  unfold mapOutline? at shape
  split at shape
  · split at shape
    · rename_i value declared
      cases shape
      cases depends
      exact .additionalProperties declared
    · cases shape
      cases depends
  · cases shape

private theorem hasPart_of_declaredOutline {node : SchemaNode} {part : Schema}
    (depends : node.declaredOutline.part? = some part) : node.HasPart part := by
  have ofMap : ∀ base : TypeExpr,
      (node.mapOutline?.getD (.settled base)).part? = some part → node.HasPart part := by
    intro base inside
    cases shape : node.mapOutline? with
    | none => simp [shape, Outline.part?] at inside
    | some outline =>
        rw [shape, Option.getD_some] at inside
        exact hasPart_of_mapOutline shape inside
  unfold declaredOutline at depends
  split at depends
  case h_5 =>
    split at depends
    · rename_i element declared
      cases depends
      exact .items declared
    · cases depends
  case h_6 => exact ofMap _ depends
  case h_7 => exact ofMap _ depends
  all_goals cases depends

/-- The schema that a node's type depends on is one of its parts. -/
theorem hasPart_of_outline {node : SchemaNode} {part : Schema}
    (depends : node.outline.part? = some part) : node.HasPart part := by
  unfold outline at depends
  split at depends
  · rename_i parent sole
    cases depends
    exact hasPart_of_soleParent sole
  · split at depends
    · cases depends
    · split at depends
      · cases depends
      · exact hasPart_of_declaredOutline depends

theorem items_of_targetOutline {name : String} {allowUnion : Bool} {node : SchemaNode}
    {element : Schema} (shape : node.targetOutline name allowUnion = .sequenceOf element) :
    node.items = some element := by
  unfold targetOutline at shape
  split at shape
  · cases shape
  · simp only at shape
    split at shape
    · cases shape
    · split at shape
      · cases shape
      · split at shape
        case h_5 =>
          split at shape
          · rename_i declared
            cases shape
            exact declared
          · cases shape
        all_goals cases shape

end SchemaNode

/-! ## Sites -/

/-- A schema with the trail and the parent name it is resolved under. -/
structure Site where
  trail : List String
  parent : String
  schema : Schema

/-- The site at which the building of a named schema starts. -/
def Site.ofNamed (name : String) (node : SchemaNode) : Site :=
  ⟨[name], name, .inline node⟩

namespace SchemaIndex

variable {index : SchemaIndex} {start : Site}

/-- The sites that resolution can get to from `start`. -/
inductive Descends (index : SchemaIndex) (start : Site) : Site → Prop where
  | here : Descends index start start
  | part {trail : List String} {parent : String} {node : SchemaNode} {schema : Schema}
      (reached : Descends index start ⟨trail, parent, .inline node⟩)
      (direct : node.HasPart schema) : Descends index start ⟨trail, parent, schema⟩
  | target {trail : List String} {parent : String} {target : Reference} {node : SchemaNode}
      (reached : Descends index start ⟨trail, parent, .reference target⟩)
      (found : index.lookup target.schemaName = some node)
      (fresh : target.schemaName ∉ trail) :
      Descends index start ⟨trail ++ [target.schemaName], parent, .inline node⟩
  | helper {trail : List String} {parent : String} {node : SchemaNode} (property : String)
      (reached : Descends index start ⟨trail, parent, .inline node⟩) :
      Descends index start ⟨trail, index.helperName parent property, .inline node⟩

/-- The cycles below a site: a reference stands where its name is on the trail
already. -/
inductive Loops (index : SchemaIndex) (start : Site) : ReferenceCycle → Prop where
  | again {trail : List String} {parent : String} {target : Reference}
      (reached : Descends index start ⟨trail, parent, .reference target⟩)
      (visited : target.schemaName ∈ trail) : Loops index start ⟨trail ++ [target.schemaName]⟩

end SchemaIndex

end SchemaCompiler
