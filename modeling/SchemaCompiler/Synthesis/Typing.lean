import SchemaCompiler.Synthesis.Enumeration
import SchemaCompiler.Synthesis.Trail

/-!
Contract: the types of schemas, without minting any helper type.

Owns:
- `Outline`, what one node says about its type: the type itself, or how it is
  built from the type of one smaller schema;
- `SchemaIndex.typeOf`, the type of a schema along a trail of names, and
  `SchemaIndex.mapAlias`, the mapping type of a node that is nothing else.

A reference to an array schema steps onto the target's name, so that a chain of
array items that leads back to itself is reported as a cycle. Every other
reference is typed by the target's own keywords alone.

Does not own: types of properties that get a helper type
(`SchemaCompiler.Synthesis.Record`).
-/

namespace SchemaCompiler

/-- The type of a node, up to the type of at most one schema inside it. -/
inductive Outline where
  | settled (type : TypeExpr)
  | sameAs (member : Schema)
  | sequenceOf (element : Schema)
  | mapOf (value : Schema)

/-- The schema inside a node that its type still depends on. -/
def Outline.part? : Outline → Option Schema
  | .settled _ => none
  | .sameAs schema | .sequenceOf schema | .mapOf schema => some schema

/-- The type of a reference's target, up to the type of its array items. -/
inductive TargetOutline where
  | settled (type : TypeExpr)
  | sequenceOf (element : Schema)

namespace SchemaNode

/-- The outline of a node that is nothing but a mapping. -/
def mapOutline? (node : SchemaNode) : Option Outline :=
  if node.isMapAlias then
    match node.additionalProperties with
    | some (.schema value) => some (.mapOf value)
    | _ => some (.settled (.map .any))
  else none

/-- The outline of a node by its declared type alone. -/
def declaredOutline (node : SchemaNode) : Outline :=
  match node.type with
  | some .string => .settled .string
  | some .integer => .settled .integer
  | some .number => .settled .float
  | some .boolean => .settled .boolean
  | some .array =>
      match node.items with
      | some element => .sequenceOf element
      | none => .settled (.sequence .any)
  | some .object => node.mapOutline?.getD (.settled (.map .any))
  | none => node.mapOutline?.getD (.settled .any)

/-- The outline of an inline node. A sole parent decides it, then enumeration
literals with companions; a union may be anything. -/
def outline (node : SchemaNode) : Outline :=
  match node.soleParent? with
  | some parent => .sameAs parent
  | none =>
      if (node.enumeration? "").isSome then .settled (Primitive.literalBase node.type)
      else if node.isUnion then .settled .any
      else node.declaredOutline

/-- The outline of a node reached by a reference called `name`. A target for
which a type is generated is named; a union is named only where unions are
allowed, and counts as any value elsewhere. -/
def targetOutline (name : String) (allowUnion : Bool) (target : SchemaNode) : TargetOutline :=
  match target.enumeration? name with
  | some definition => .settled (.named definition.name)
  | none =>
      let generated : TypeExpr := .named (Naming.exportedName name)
      if target.isUnion then .settled (if allowUnion then generated else .any)
      else if target.isSimpleAlias then .settled generated
      else
        match target.type with
        | some .string => .settled .string
        | some .integer => .settled .int
        | some .number => .settled .float
        | some .boolean => .settled .boolean
        | some .array =>
            match target.items with
            | some element => .sequenceOf element
            | none => .settled (.sequence .any)
        | some .object | none => .settled generated

/-! ## The part an outline depends on is smaller than the node -/

private theorem sizeOf_items_lt {node : SchemaNode} {element : Schema}
    (declared : node.items = some element) : sizeOf element < sizeOf node := by
  cases node
  simp only at declared
  subst declared
  simp only [mk.sizeOf_spec, Option.some.sizeOf_spec]
  omega

private theorem sizeOf_mapValue_lt {node : SchemaNode} {value : Schema}
    (declared : node.additionalProperties = some (.schema value)) :
    sizeOf value < sizeOf node := by
  cases node
  simp only at declared
  subst declared
  simp only [mk.sizeOf_spec, Option.some.sizeOf_spec, AdditionalProperties.schema.sizeOf_spec]
  omega

private theorem sizeOf_parent_lt {node : SchemaNode} {parent : Schema}
    (sole : node.soleParent? = some parent) : sizeOf parent < sizeOf node := by
  have member : node.allOf = [parent] := by
    unfold soleParent? at sole
    split at sole
    · rename_i only same
      split at sole
      · simp at sole
      · simp only [Option.some.injEq] at sole
        rw [same, sole]
    · simp at sole
  cases node
  simp only at member
  subst member
  simp only [mk.sizeOf_spec, List.cons.sizeOf_spec]
  omega

theorem sizeOf_mapOutline_part_lt {node : SchemaNode} {outline : Outline} {part : Schema}
    (shape : node.mapOutline? = some outline) (depends : outline.part? = some part) :
    sizeOf part < sizeOf node := by
  unfold mapOutline? at shape
  split at shape
  · split at shape
    · rename_i value declared
      simp only [Option.some.injEq] at shape
      subst shape
      simp only [Outline.part?, Option.some.injEq] at depends
      exact depends ▸ sizeOf_mapValue_lt declared
    · simp only [Option.some.injEq] at shape
      subst shape
      simp [Outline.part?] at depends
  · simp at shape

private theorem sizeOf_declared_part_lt {node : SchemaNode} {part : Schema}
    (depends : node.declaredOutline.part? = some part) : sizeOf part < sizeOf node := by
  unfold declaredOutline at depends
  have ofMap : ∀ base : TypeExpr,
      (node.mapOutline?.getD (.settled base)).part? = some part → sizeOf part < sizeOf node := by
    intro base inside
    cases shape : node.mapOutline? with
    | none => simp [shape, Outline.part?] at inside
    | some outline =>
        rw [shape, Option.getD_some] at inside
        exact sizeOf_mapOutline_part_lt shape inside
  split at depends
  case h_5 =>
    split at depends
    · rename_i element declared
      simp only [Outline.part?, Option.some.injEq] at depends
      exact depends ▸ sizeOf_items_lt declared
    · simp [Outline.part?] at depends
  case h_6 => exact ofMap _ depends
  case h_7 => exact ofMap _ depends
  all_goals simp [Outline.part?] at depends

theorem sizeOf_outline_part_lt {node : SchemaNode} {part : Schema}
    (depends : node.outline.part? = some part) : sizeOf part < sizeOf node := by
  unfold outline at depends
  split at depends
  · rename_i parent sole
    simp only [Outline.part?, Option.some.injEq] at depends
    exact depends ▸ sizeOf_parent_lt sole
  · split at depends
    · simp [Outline.part?] at depends
    · split at depends
      · simp [Outline.part?] at depends
      · exact sizeOf_declared_part_lt depends

end SchemaNode

namespace SchemaIndex

/-- The type of a schema, resolved along `trail`. References to unions are any
value unless `allowUnion`; the values of a mapping may always be unions. -/
def typeOf (index : SchemaIndex) (trail : List String) (allowUnion : Bool) (schema : Schema) :
    Except ReferenceCycle TypeExpr :=
  match schema with
  | .reference target =>
      let name := target.schemaName
      match found : index.lookup name with
      | none => .ok .any
      | some node =>
          match node.targetOutline name allowUnion with
          | .settled type => .ok type
          | .sequenceOf element =>
              if looped : name ∈ trail then .error ⟨trail ++ [name]⟩
              else
                have := freshCount_append_lt (mem_names_of_lookup found) looped
                (typeOf index (trail ++ [name]) allowUnion element).map .sequence
  | .inline node =>
      match shape : node.outline with
      | .settled type => .ok type
      | .sameAs member =>
          have : sizeOf member < sizeOf node :=
            SchemaNode.sizeOf_outline_part_lt (by rw [shape]; rfl)
          typeOf index trail allowUnion member
      | .sequenceOf element =>
          have : sizeOf element < sizeOf node :=
            SchemaNode.sizeOf_outline_part_lt (by rw [shape]; rfl)
          (typeOf index trail allowUnion element).map .sequence
      | .mapOf value =>
          have : sizeOf value < sizeOf node :=
            SchemaNode.sizeOf_outline_part_lt (by rw [shape]; rfl)
          (typeOf index trail true value).map .map
termination_by (index.freshCount trail, sizeOf schema)

/-- The type of an inline node follows its outline. -/
theorem typeOf_inline (index : SchemaIndex) (trail : List String) (allowUnion : Bool)
    (node : SchemaNode) :
    index.typeOf trail allowUnion (.inline node) =
      match node.outline with
      | .settled type => .ok type
      | .sameAs member => index.typeOf trail allowUnion member
      | .sequenceOf element => (index.typeOf trail allowUnion element).map .sequence
      | .mapOf value => (index.typeOf trail true value).map .map := by
  rw [typeOf]
  split <;> rename_i shape <;> simp only [shape]

/-- The type of a reference follows the outline of its target. -/
theorem typeOf_reference (index : SchemaIndex) (trail : List String) (allowUnion : Bool)
    (target : Reference) :
    index.typeOf trail allowUnion (.reference target) =
      match index.lookup target.schemaName with
      | none => .ok .any
      | some node =>
          match node.targetOutline target.schemaName allowUnion with
          | .settled type => .ok type
          | .sequenceOf element =>
              if target.schemaName ∈ trail then .error ⟨trail ++ [target.schemaName]⟩
              else (index.typeOf (trail ++ [target.schemaName]) allowUnion element).map
                .sequence := by
  rw [typeOf]
  split
  · rename_i missing
    rw [missing]
  · rename_i node found
    simp only [found, dite_eq_ite]

theorem typeOf_of_settled {index : SchemaIndex} {trail : List String} {node : SchemaNode}
    {type : TypeExpr} (shape : node.outline = .settled type) (allowUnion : Bool) :
    index.typeOf trail allowUnion (.inline node) = .ok type := by
  rw [typeOf_inline, shape]

/-- The mapping type of a node that is nothing but a mapping. -/
def mapAlias (index : SchemaIndex) (trail : List String) (node : SchemaNode) :
    Except ReferenceCycle (Option TypeExpr) :=
  if node.isMapAlias then
    match node.additionalProperties with
    | some (.schema value) => (index.typeOf trail true value).map fun type => some (.map type)
    | _ => .ok (some (.map .any))
  else .ok none

end SchemaIndex

end SchemaCompiler
