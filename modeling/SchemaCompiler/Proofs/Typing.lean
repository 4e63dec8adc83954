import SchemaCompiler.Proofs.Site
import Mathlib.Data.List.Forall2

/-!
Contract: what typing without helpers mentions, and how it fails.

Owns:
- `TypeExpr.builtin`, the types that keywords settle by themselves;
- `SchemaNode.canonicalName`, the name a declared schema is generated under,
  and `SchemaIndex.Declares`, the names that some resolving schema has;
- `SchemaIndex.Explained`, which says that a result mentions declared names
  only, or is a cycle below a site;
- that `typeOf`, `mapAlias` and `unionDefinition` are explained;
- `Primitive.typeExpr`, the types of schemas that declare nothing else, and the
  fields of such schemas without any notes.

The name that a reference is typed by and the name that its target is
generated under come from two separate classifications. They agree because
both are the canonical name of the target.

Does not own: helper types (`SchemaCompiler.Proofs.Account`).
-/

namespace SchemaCompiler

/-! ## Results -/

theorem exists_of_map_eq_ok {ε α β : Type} {result : Except ε α} {function : α → β} {value : β}
    (outcome : result.map function = .ok value) :
    ∃ first, result = .ok first ∧ function first = value := by
  cases result with
  | error fault => cases outcome
  | ok first =>
      cases outcome
      exact ⟨first, rfl, rfl⟩

/-- Each item has its result in the list, in order. -/
theorem forall₂_of_mapM_ok {ε α β : Type} {function : α → Except ε β} {items : List α}
    {values : List β} (outcome : items.mapM function = .ok values) :
    List.Forall₂ (fun item value => function item = .ok value) items values := by
  induction items generalizing values with
  | nil =>
      cases outcome
      exact .nil
  | cons head tail inductionHypothesis =>
      rw [List.mapM_cons] at outcome
      cases atHead : function head with
      | error fault =>
          rw [atHead] at outcome
          cases outcome
      | ok first =>
          cases inTail : tail.mapM function with
          | error fault =>
              rw [atHead, inTail] at outcome
              cases outcome
          | ok rest =>
              rw [atHead, inTail] at outcome
              cases outcome
              exact .cons atHead (inductionHypothesis inTail)

/-- A value in the list of results is the result of the item at its place. -/
theorem exists_of_mem_mapM_ok {ε α β : Type} {function : α → Except ε β} {items : List α}
    {values : List β} (outcome : items.mapM function = .ok values) :
    ∀ value ∈ values, ∃ item, (item, value) ∈ items.zip values ∧ function item = .ok value := by
  have paired := forall₂_of_mapM_ok outcome
  clear outcome
  induction paired with
  | nil => simp
  | cons atHead _ inductionHypothesis =>
      intro value member
      rcases List.mem_cons.1 member with isHead | inRest
      · subst isHead
        exact ⟨_, List.mem_cons_self, atHead⟩
      · obtain ⟨item, listed, same⟩ := inductionHypothesis value inRest
        exact ⟨item, List.mem_cons_of_mem _ listed, same⟩

/-- A list is run through when each of its items has a result. -/
theorem exists_mapM_ok_iff {ε α β : Type} {function : α → Except ε β} {items : List α} :
    (∃ values, items.mapM function = .ok values) ↔
      ∀ item ∈ items, ∃ value, function item = .ok value := by
  induction items with
  | nil => exact ⟨fun _ _ member => absurd member List.not_mem_nil, fun _ => ⟨[], rfl⟩⟩
  | cons head tail inductionHypothesis =>
      rw [List.forall_mem_cons, ← inductionHypothesis, List.mapM_cons]
      cases function head with
      | error fault => simp [bind, Except.bind]
      | ok first => cases tail.mapM function <;> simp [bind, Except.bind, pure, Except.pure]

/-! ## Built-in types -/

namespace TypeExpr

/-- The types that keywords settle without a generated name. -/
def builtin : List TypeExpr :=
  [.string, .integer, .int, .float, .boolean, .any, .sequence .any, .map .any]

theorem namedLeaves_of_mem_builtin {type : TypeExpr} (listed : type ∈ builtin) :
    type.namedLeaves = [] := by
  have none : ∀ other ∈ builtin, other.namedLeaves = [] := by decide
  exact none type listed

end TypeExpr

/-! ## Canonical names of schemas -/

namespace SchemaNode

/-- The name a schema called `name` is generated under: its exported name, or,
for an enumeration without one, the type part of the first companion name. -/
def canonicalName (name : String) (node : SchemaNode) : String :=
  if node.isEnum then node.enumName name else Naming.exportedName name

theorem name_of_enumeration {name : String} {node : SchemaNode} {definition : TypeDefinition}
    (found : node.enumeration? name = some definition) :
    definition.name = node.canonicalName name := by
  obtain ⟨enumerates, -, rfl⟩ := enumeration?_eq_some_iff.1 found
  rw [canonicalName, if_pos enumerates]
  rfl

/-- Without an enumeration the exported name is left, be it empty. -/
theorem canonicalName_of_no_enumeration {name : String} {node : SchemaNode}
    (none : node.enumeration? name = none) :
    node.canonicalName name = Naming.exportedName name := by
  unfold canonicalName
  split
  · rename_i enumerates
    have nameless : node.enumName name = "" := Classical.byContradiction fun named => by
      rw [enumeration?_eq_some_iff.2 ⟨enumerates, named, rfl⟩] at none
      cases none
    rw [nameless]
    unfold enumName at nameless
    simp only at nameless
    split at nameless
    · rename_i empty
      exact empty.symm
    · rename_i named
      exact absurd nameless named
  · rfl

theorem canonicalName_of_exportedName {name : String} (node : SchemaNode)
    (named : Naming.exportedName name ≠ "") :
    node.canonicalName name = Naming.exportedName name := by
  unfold canonicalName enumName
  split
  · simp only [named, if_false]
  · rfl

theorem literalBase_mem_builtin (type : Option Primitive) :
    Primitive.literalBase type ∈ TypeExpr.builtin := by
  cases type with
  | none => decide
  | some primitive => cases primitive <;> decide

theorem namedLeaves_of_enumeration {name : String} {node : SchemaNode}
    {definition : TypeDefinition} (found : node.enumeration? name = some definition) :
    definition.namedLeaves = [] := by
  obtain ⟨-, -, rfl⟩ := enumeration?_eq_some_iff.1 found
  have plain := TypeExpr.namedLeaves_of_mem_builtin (literalBase_mem_builtin node.type)
  simp [TypeDefinition.namedLeaves, TypeDefinition.types, TypeDefinition.enumeration, plain]

/-- Without a schema inside it, a node has a built-in type. -/
theorem mem_builtin_of_outline {node : SchemaNode} {type : TypeExpr}
    (shape : node.outline = .settled type) : type ∈ TypeExpr.builtin := by
  have ofMap : ∀ base ∈ TypeExpr.builtin,
      node.mapOutline?.getD (.settled base) = .settled type → type ∈ TypeExpr.builtin := by
    intro base listed inside
    unfold mapOutline? at inside
    split at inside
    · split at inside
      · cases inside
      · cases inside
        decide
    · cases inside
      exact listed
  unfold outline at shape
  split at shape
  · cases shape
  · split at shape
    · cases shape
      exact literalBase_mem_builtin node.type
    · split at shape
      · cases shape
        decide
      · unfold declaredOutline at shape
        split at shape
        case h_5 =>
          split at shape
          · cases shape
          · cases shape
            decide
        case h_6 => exact ofMap _ (by decide) shape
        case h_7 => exact ofMap _ (by decide) shape
        all_goals
          cases shape
          decide

/-- A reference is typed by the canonical name of its target, or by a built-in
type. -/
theorem targetOutline_cases {name : String} {allowUnion : Bool} {node : SchemaNode}
    {type : TypeExpr} (shape : node.targetOutline name allowUnion = .settled type) :
    type = .named (node.canonicalName name) ∨ type ∈ TypeExpr.builtin := by
  unfold targetOutline at shape
  split at shape
  · rename_i definition found
    cases shape
    exact Or.inl (by rw [name_of_enumeration found])
  · rename_i none
    rw [canonicalName_of_no_enumeration none]
    simp only at shape
    split at shape
    · cases shape
      cases allowUnion with
      | false =>
          change _ ∨ TypeExpr.any ∈ TypeExpr.builtin
          exact Or.inr (by decide)
      | true => exact Or.inl rfl
    · split at shape
      · cases shape
        exact Or.inl rfl
      · split at shape
        case h_5 =>
          split at shape
          · cases shape
          · cases shape
            exact Or.inr (by decide)
        case h_6 =>
          cases shape
          exact Or.inl rfl
        case h_7 =>
          cases shape
          exact Or.inl rfl
        all_goals
          cases shape
          exact Or.inr (by decide)

theorem namedLeaves_of_outline {node : SchemaNode} {type : TypeExpr}
    (shape : node.outline = .settled type) : type.namedLeaves = [] :=
  TypeExpr.namedLeaves_of_mem_builtin (mem_builtin_of_outline shape)

/-- A reference is typed by the canonical name of its target, or by no name. -/
theorem namedLeaves_of_targetOutline {name leaf : String} {allowUnion : Bool} {node : SchemaNode}
    {type : TypeExpr} (shape : node.targetOutline name allowUnion = .settled type)
    (mentioned : leaf ∈ type.namedLeaves) : leaf = node.canonicalName name := by
  rcases targetOutline_cases shape with named | builtin
  · subst named
    exact List.mem_singleton.1 mentioned
  · rw [TypeExpr.namedLeaves_of_mem_builtin builtin] at mentioned
    cases mentioned

end SchemaNode

namespace SchemaIndex

variable {index : SchemaIndex} {start : Site} {α β : Type}

/-- The name is the canonical name of a declared schema that resolves. -/
def Declares (index : SchemaIndex) (leaf : String) : Prop :=
  ∃ name node, index.lookup name = some node ∧ leaf = node.canonicalName name

/-! ## Explained results -/

/-- A value mentions declared names only, and a failure is a cycle below
`start`. -/
structure Explained (index : SchemaIndex) (start : Site) (mentions : α → List String)
    (result : Except ReferenceCycle α) : Prop where
  declared : ∀ value, result = .ok value → ∀ leaf ∈ mentions value, index.Declares leaf
  loops : ∀ cycle, result = .error cycle → index.Loops start cycle

theorem explained_ok {mentions : α → List String} {value : α}
    (declared : ∀ leaf ∈ mentions value, index.Declares leaf) :
    index.Explained start mentions (.ok value) where
  declared := by
    intro other same
    cases same
    exact declared
  loops := by
    intro cycle failed
    cases failed

theorem explained_error {mentions : α → List String} {cycle : ReferenceCycle}
    (loops : index.Loops start cycle) : index.Explained start mentions (.error cycle) where
  declared := by
    intro value failed
    cases failed
  loops := by
    intro other same
    cases same
    exact loops

theorem Explained.map {mentions : α → List String} {further : β → List String}
    {result : Except ReferenceCycle α} (explained : index.Explained start mentions result)
    (function : α → β)
    (kept : ∀ value, ∀ leaf ∈ further (function value), leaf ∈ mentions value) :
    index.Explained start further (result.map function) := by
  cases outcome : result with
  | error cycle => exact explained_error (explained.loops cycle outcome)
  | ok value =>
      exact explained_ok fun leaf member =>
        explained.declared value outcome leaf (kept value leaf member)

theorem Explained.bind {mentions : α → List String} {further : β → List String}
    {result : Except ReferenceCycle α} {next : α → Except ReferenceCycle β}
    (first : index.Explained start mentions result)
    (second : ∀ value, (∀ leaf ∈ mentions value, index.Declares leaf) →
      index.Explained start further (next value)) :
    index.Explained start further (result >>= next) := by
  cases outcome : result with
  | error cycle => exact explained_error (first.loops cycle outcome)
  | ok value => exact second value (first.declared value outcome)

theorem explained_mapM {mentions : β → List String} {function : α → Except ReferenceCycle β}
    {items : List α} (each : ∀ item ∈ items, index.Explained start mentions (function item)) :
    index.Explained start (fun values => values.flatMap mentions) (items.mapM function) := by
  induction items with
  | nil => exact explained_ok (by simp)
  | cons head tail inductionHypothesis =>
      rw [List.mapM_cons]
      apply (each head (by simp)).bind
      intro value inHead
      apply (inductionHypothesis fun item member => each item (by simp [member])).bind
      intro values inTail
      apply explained_ok
      intro leaf member
      rw [List.flatMap_cons] at member
      rcases List.mem_append.1 member with atHead | atTail
      · exact inHead leaf atHead
      · exact inTail leaf atTail

/-! ## Types of schemas -/

theorem typeOf_explained {parent : String} {trail : List String} {schema : Schema}
    (reached : index.Descends start ⟨trail, parent, schema⟩) (allowUnion : Bool) :
    index.Explained start TypeExpr.namedLeaves (index.typeOf trail allowUnion schema) := by
  fun_induction typeOf index trail allowUnion schema with
  | case1 => exact explained_ok (by simp [TypeExpr.namedLeaves])
  | case2 trail allowUnion target name node found type shape =>
      apply explained_ok
      intro leaf mentioned
      exact ⟨name, node, found, SchemaNode.namedLeaves_of_targetOutline shape mentioned⟩
  | case3 trail allowUnion target name node found element shape looped =>
      exact explained_error (.again reached looped)
  | case4 trail allowUnion target name node found element shape fresh _ inductionHypothesis =>
      have declared := SchemaNode.items_of_targetOutline shape
      exact (inductionHypothesis (.part (.target reached found fresh) (.items declared))).map
        _ fun _ _ member => member
  | case5 trail allowUnion node type shape =>
      apply explained_ok
      rw [SchemaNode.namedLeaves_of_outline shape]
      simp
  | case6 trail allowUnion node member shape _ inductionHypothesis =>
      exact inductionHypothesis
        (.part reached (SchemaNode.hasPart_of_outline (by rw [shape]; rfl)))
  | case7 trail allowUnion node element shape _ inductionHypothesis =>
      have direct : node.HasPart element := SchemaNode.hasPart_of_outline (by rw [shape]; rfl)
      exact (inductionHypothesis (.part reached direct)).map _ fun _ _ member => member
  | case8 trail allowUnion node value shape _ inductionHypothesis =>
      have direct : node.HasPart value := SchemaNode.hasPart_of_outline (by rw [shape]; rfl)
      exact (inductionHypothesis (.part reached direct)).map _ fun _ _ member => member

theorem mapAlias_explained {parent : String} {trail : List String} {node : SchemaNode}
    (reached : index.Descends start ⟨trail, parent, .inline node⟩) :
    index.Explained start (fun type => type.elim [] TypeExpr.namedLeaves)
      (index.mapAlias trail node) := by
  unfold mapAlias
  split
  · split
    · rename_i value declared
      have direct : node.HasPart value := .additionalProperties declared
      exact (typeOf_explained (.part reached direct) true).map _ fun _ _ member => member
    · exact explained_ok (by simp [TypeExpr.namedLeaves])
  · exact explained_ok (by simp)

/-! ## Unions -/

end SchemaIndex

theorem Variant.member_mem {taken : List String} {position : Nat} {members : List Schema}
    {variant : Variant} (listed : variant ∈ named taken position members) :
    variant.member ∈ members := by
  induction members generalizing taken position with
  | nil => cases listed
  | cons head tail inductionHypothesis =>
      rcases List.mem_cons.1 listed with isHead | inTail
      · subst variant
        exact List.mem_cons_self
      · exact List.mem_cons_of_mem _ (inductionHypothesis inTail)

namespace SchemaIndex

variable {index : SchemaIndex} {start : Site}

theorem unionFields_explained {parent : String} {trail : List String} {node : SchemaNode}
    (reached : index.Descends start ⟨trail, parent, .inline node⟩) :
    index.Explained start (fun fields => fields.flatMap fun field => field.type.namedLeaves)
      (index.unionFields trail node) := by
  apply explained_mapM
  intro variant listed
  have direct : node.HasPart variant.member :=
    SchemaNode.hasPart_of_unionMembers (Variant.member_mem listed)
  refine (typeOf_explained (.part reached direct) true).map _ fun type leaf member => ?_
  simpa only [TypeExpr.namedLeaves_makeOptional] using member

theorem unionDefinition_explained {parent : String} {trail : List String} {node : SchemaNode}
    (reached : index.Descends start ⟨trail, parent, .inline node⟩) (name : String) :
    index.Explained start TypeDefinition.namedLeaves (index.unionDefinition trail name node) := by
  refine (unionFields_explained reached).map _ fun fields leaf member => ?_
  rwa [TypeDefinition.namedLeaves_record] at member

theorem name_of_unionDefinition {trail : List String} {name : String} {node : SchemaNode}
    {definition : TypeDefinition} (built : index.unionDefinition trail name node = .ok definition) :
    definition.name = Naming.exportedName name := by
  obtain ⟨fields, -, rfl⟩ := exists_of_map_eq_ok built
  rfl

end SchemaIndex

/-! ## Schemas that declare a primitive type and nothing else -/

/-- The type of a node that declares the primitive and has no other keyword that
counts. -/
def Primitive.typeExpr : Primitive → TypeExpr
  | .string => .string
  | .integer => .integer
  | .number => .float
  | .boolean => .boolean
  | .array => .sequence .any
  | .object => .map .any

/-- Neither a title nor a default changes the type of a declared primitive. -/
theorem SchemaIndex.typeOf_primitive (index : SchemaIndex) (trail : List String)
    (allowUnion : Bool) (primitive : Primitive) (title : Option String) (default : Option Json) :
    index.typeOf trail allowUnion (.inline { type := some primitive, title, default }) =
      .ok primitive.typeExpr := by
  cases primitive <;> exact typeOf_of_settled rfl allowUnion

def textSchema : Schema := .inline { type := some .string }

/-- A field that nothing is said about, tagged with its own name. -/
def FieldDefinition.withoutNotes (name exportedName : String) (type : TypeExpr)
    (optional : Bool) : FieldDefinition :=
  { name, exportedName, type, optional, tag := ⟨name, optional⟩, description := none
    default := none, annotate := false }

end SchemaCompiler
