import SchemaCompiler.Proofs.Occurrences

/-!
Contract: the synthesis with its trail on a stack.

Owns:
- `OnStack`, computations on the state of a run, which push the names that are
  being resolved onto its trail and pop them again, and may fail in any state;
- the functions of the synthesis as such computations, from `OnStack.typeOf` to
  `OnStack.parents`, each with a bound on the names that it may still push;
- `OnStack.Ends`, how a computation ends when nothing bounds the stack;
- `OnStack.Follows`: whatever helper types there are, the computation ends with the
  answer and the helper types of one that is given its trail, and with the stack
  that it began with. There is one rule for each way of composing computations
  and one lemma for each function.

Nothing but `enter` and `leave` touches the stack. A cycle that is met between the
two is held until the name has been popped. The bound makes the recursion well
founded whatever becomes of the stack. It is never reached where it is no less
than the number of names that are new to the stack, because every name is popped
again.

Does not own: what becomes of the helper types (`SchemaCompiler.Proofs.HelperGrowth`).
-/

namespace SchemaCompiler

/-- A computation on the state of a run. It may meet a cycle, which leaves a state
as well, or need a stack deeper than it is allowed, which leaves nothing. -/
abbrev OnStack (α : Type) := ExceptT ReferenceCycle (StateT Synthesizer Option) α

namespace OnStack

variable {α β : Type}

/-- The answer of a computation with the state that it leaves, if the stack was
allowed to be deep enough. -/
def runFrom (computation : OnStack α) (synthesizer : Synthesizer) :
    Option (Except ReferenceCycle α × Synthesizer) :=
  (computation.run).run synthesizer

/-! ## The stack -/

/-- Pushes a name, and gives the depth that is left. A name that is on the stack
already fails with the cycle. -/
def enter (depth : Nat) (name : String) : OnStack { left : Nat // left < depth } := do
  let synthesizer ← get
  if name ∈ synthesizer.trail then throw ⟨synthesizer.trail ++ [name]⟩
  set { synthesizer with trail := synthesizer.trail ++ [name] }
  if room : 0 < depth then return ⟨depth - 1, Nat.sub_one_lt_of_lt room⟩
  else ExceptT.mk fun _ => none

/-- Pops the name on top. -/
def leave : StateT Synthesizer Option Unit :=
  modify fun synthesizer => { synthesizer with trail := synthesizer.trail.dropLast }

/-- Pops a name after the computation, also when that has met a cycle. -/
def thenLeave (computation : OnStack α) : OnStack α :=
  ExceptT.mk do
    let outcome ← computation.run
    leave
    return outcome

def schemaIndex : OnStack SchemaIndex := do
  return (← get).index

/-- Keeps a helper type under its name, unless there is one, and gives the name. -/
def remember (definition : TypeDefinition) : OnStack String := do
  let synthesizer ← get
  if !synthesizer.helpers.has definition.name then
    set { synthesizer with
      helpers := synthesizer.helpers.insert definition.name definition }
  return definition.name

/-! ## The synthesis -/

/-- The type of a schema. The items of an array schema are typed while its name is
on the stack. -/
def typeOf (depth : Nat) (allowUnion : Bool) (schema : Schema) : OnStack TypeExpr :=
  match schema with
  | .reference target => do
      match (← schemaIndex).lookup target.schemaName with
      | none => return .any
      | some node =>
          match node.targetOutline target.schemaName allowUnion with
          | .settled type => return type
          | .sequenceOf element =>
              let ⟨left, _⟩ ← enter depth target.schemaName
              return .sequence (← thenLeave (typeOf left allowUnion element))
  | .inline node =>
      match shape : node.outline with
      | .settled type => return type
      | .sameAs member =>
          have : sizeOf member < sizeOf node :=
            SchemaNode.sizeOf_outline_part_lt (by rw [shape]; rfl)
          typeOf depth allowUnion member
      | .sequenceOf element => do
          have : sizeOf element < sizeOf node :=
            SchemaNode.sizeOf_outline_part_lt (by rw [shape]; rfl)
          return .sequence (← typeOf depth allowUnion element)
      | .mapOf value => do
          have : sizeOf value < sizeOf node :=
            SchemaNode.sizeOf_outline_part_lt (by rw [shape]; rfl)
          return .map (← typeOf depth true value)
termination_by (depth, sizeOf schema)

def mapAlias (depth : Nat) (node : SchemaNode) : OnStack (Option TypeExpr) :=
  if node.isMapAlias then
    match node.additionalProperties with
    | some (.schema value) => return some (.map (← typeOf depth true value))
    | _ => return some (.map .any)
  else return none

def variantField (depth : Nat) (variant : Variant) : OnStack FieldDefinition := do
  let type ← typeOf depth true variant.member
  return (← schemaIndex).alternativeField variant type

def unionFields (depth : Nat) (node : SchemaNode) : OnStack (List FieldDefinition) :=
  (Variant.ofNode node).mapM (variantField depth)

def unionDefinition (depth : Nat) (name : String) (node : SchemaNode) :
    OnStack TypeDefinition := do
  return .record (Naming.exportedName name) node.normalDescription (← unionFields depth node)

mutual

/-- The type of a property. A helper type is kept once its definition is made. -/
def propertyType (depth : Nat) (parent property : String) (schema : Schema) :
    OnStack TypeExpr :=
  match schema with
  | .reference target => typeOf depth true (.reference target)
  | .inline node =>
      match node.soleParentReference? with
      | some target => typeOf depth true (.reference target)
      | none => do
          let helper := (← schemaIndex).helperName parent property
          match node.enumeration? helper with
          | some definition => return .named (← remember definition)
          | none =>
              if node.isUnion then
                let definition ← unionDefinition depth helper node
                return .named (← remember definition)
              else if node.isComposite then
                let definition ← recordDefinition depth helper node
                return .named (← remember definition)
              else typeOf depth true (.inline node)
termination_by (depth, sizeOf schema, 0)

def recordDefinition (depth : Nat) (name : String) (node : SchemaNode) :
    OnStack TypeDefinition :=
  match node.enumeration? name with
  | some definition => return definition
  | none => do
      let typeName := Naming.exportedName name
      match ← mapAlias depth node with
      | some target => return .transparentAlias typeName target
      | none =>
          if node.isEmptySchema then
            let target ← typeOf depth false (.inline node)
            match node.normalDescription with
            | some description => return .distinctAlias typeName target description
            | none => return .transparentAlias typeName target
          else
            let required := (← schemaIndex).requiredNames node
            let own ← contribution depth name required node {}
            have := SchemaIndex.sizeOf_allOf_lt node
            let table ← parents depth name required node.allOf own
            return .record typeName node.normalDescription table.values
termination_by (depth, sizeOf node, 2)

def contribution (depth : Nat) (parent : String) (required : List String) (source : SchemaNode)
    (table : FieldTable) : OnStack FieldTable :=
  if source.hasProperties then
    have := SchemaIndex.sizeOf_properties_lt source
    properties depth parent required source.properties table
  else if source.isUnion then return table.addAbsent (← unionFields depth source)
  else return table
termination_by (depth, sizeOf source, 1)

def properties (depth : Nat) (parent : String) (required : List String)
    (declared : List (String × Schema)) (table : FieldTable) : OnStack FieldTable :=
  match declared with
  | [] => return table
  | (property, schema) :: rest => do
      let type ← propertyType depth parent property schema
      let index ← schemaIndex
      properties depth parent required rest
        (index.withProperty table property schema type (!required.contains property))
termination_by (depth, sizeOf declared, 0)

/-- The fields of a parent that is a reference are added while its name is on the
stack, and it is off again before the next parent. -/
def parents (depth : Nat) (parent : String) (required : List String) (members : List Schema)
    (table : FieldTable) : OnStack FieldTable :=
  match members with
  | [] => return table
  | .inline node :: rest => do
      let extended ← contribution depth parent required node table
      parents depth parent required rest extended
  | .reference target :: rest => do
      match (← schemaIndex).lookup target.schemaName with
      | none => parents depth parent required rest table
      | some node =>
          let ⟨left, _⟩ ← enter depth target.schemaName
          let extended ← thenLeave (contribution left parent required node table)
          parents depth parent required rest extended
termination_by (depth, sizeOf members, 0)

end

/-! ## Following a trail -/

/-- With `trail` on the stack the computation ends, whatever helper types there are:
with the answer and the helper types of `along`, the same index and the same
stack. -/
def Follows (index : SchemaIndex) (trail : List String) (stacked : OnStack α)
    (along : Minting α) : Prop :=
  ∀ helpers : HelperTable, stacked.runFrom ⟨index, helpers, trail⟩ =
    some (Synthesizer.minting ⟨index, helpers, trail⟩ along)

/-- How a computation ends without a bound: so it does from some depth on. -/
def Ends (computation : Nat → OnStack α) (synthesizer : Synthesizer)
    (ended : Except ReferenceCycle α × Synthesizer) : Prop :=
  ∃ enough, ∀ depth, enough ≤ depth → (computation depth).runFrom synthesizer = some ended

variable {index : SchemaIndex} {trail : List String}

/-- As many names as are new to the stack are room enough. -/
theorem ends_of_follows {computation : Nat → OnStack α} {along : Minting α} {helpers : HelperTable}
    (follows : ∀ {depth}, index.freshCount trail ≤ depth →
      Follows index trail (computation depth) along) :
    Ends computation ⟨index, helpers, trail⟩ (Synthesizer.minting ⟨index, helpers, trail⟩ along) :=
  ⟨index.freshCount trail, fun _ enough => follows enough helpers⟩

theorem runFrom_bind (first : OnStack α) (next : α → OnStack β) (synthesizer : Synthesizer) :
    (first >>= next).runFrom synthesizer = (first.runFrom synthesizer).bind fun
      | (.ok value, after) => (next value).runFrom after
      | (.error cycle, after) => some (.error cycle, after) := by
  unfold runFrom
  rw [ExceptT.run_bind, StateT.run_bind]
  cases (first.run).run synthesizer with
  | none => rfl
  | some ended =>
      obtain ⟨result, after⟩ := ended
      cases result <;> rfl

theorem follows_pure (value : α) : Follows index trail (pure value) (pure value) :=
  fun _ => rfl

theorem Follows.bind {first : OnStack α} {along : Minting α} {next : α → OnStack β}
    {following : α → Minting β} (follows : Follows index trail first along)
    (rest : ∀ value, Follows index trail (next value) (following value)) :
    Follows index trail (first >>= next) (along >>= following) := by
  intro helpers
  rw [runFrom_bind, follows helpers, Synthesizer.minting, Synthesizer.minting, Minting.run_bind]
  cases (along.run).run helpers with
  | mk result after =>
      cases result with
      | error cycle => rfl
      | ok value => exact rest value after

theorem Follows.map {computation : OnStack α} {along : Minting α}
    (follows : Follows index trail computation along) (function : α → β) :
    Follows index trail (do return function (← computation)) (function <$> along) := by
  rw [map_eq_pure_bind]
  exact follows.bind fun value => follows_pure (function value)

theorem follows_schemaIndex {next : SchemaIndex → OnStack α} {along : Minting α}
    (follows : Follows index trail (next index) along) :
    Follows index trail (schemaIndex >>= next) along :=
  follows

theorem follows_remember (definition : TypeDefinition) :
    Follows index trail (remember definition) (Minting.remember definition) := by
  intro helpers
  change runFrom (if !helpers.has definition.name then
    (do set (Synthesizer.mk index (helpers.insert definition.name definition) trail)
        return definition.name)
    else return definition.name) ⟨index, helpers, trail⟩ = _
  rw [Synthesizer.minting, Minting.writes_remember]
  change _ = some (_, Synthesizer.mk index (helpers.keep definition) trail)
  unfold HelperTable.keep
  cases helpers.has definition.name <;> rfl

/-! ### A name on the stack -/

variable {depth : Nat} {name : String}

theorem runFrom_enter_of_mem {synthesizer : Synthesizer} (looped : name ∈ synthesizer.trail) :
    (enter depth name).runFrom synthesizer =
      some (.error ⟨synthesizer.trail ++ [name]⟩, synthesizer) := by
  unfold enter
  rw [runFrom_bind]
  change runFrom (if name ∈ synthesizer.trail then _ else _) synthesizer = _
  rw [if_pos looped]
  rfl

theorem runFrom_enter_of_not_mem {synthesizer : Synthesizer} (fresh : name ∉ synthesizer.trail)
    (room : 0 < depth) :
    (enter depth name).runFrom synthesizer =
      some (.ok ⟨depth - 1, Nat.sub_one_lt_of_lt room⟩,
        { synthesizer with trail := synthesizer.trail ++ [name] }) := by
  unfold enter
  rw [runFrom_bind]
  change runFrom (if name ∈ synthesizer.trail then _ else _) synthesizer = _
  rw [if_neg fresh, dif_pos room]
  rfl

/-- The name on top is popped whatever the answer is. -/
theorem runFrom_thenLeave {computation : OnStack α} {synthesizer after : Synthesizer}
    {result : Except ReferenceCycle α}
    (ended : computation.runFrom synthesizer = some (result, after)) :
    (thenLeave computation).runFrom synthesizer =
      some (result, { after with trail := after.trail.dropLast }) := by
  change (computation.runFrom synthesizer).bind _ = _
  rw [ended]
  rfl

/-- A name that is on the stack is not pushed again. -/
theorem follows_enter_of_mem (looped : name ∈ trail)
    (next : { left : Nat // left < depth } → OnStack α) :
    Follows index trail (enter depth name >>= next) (throw ⟨trail ++ [name]⟩) := by
  intro helpers
  rw [runFrom_bind, runFrom_enter_of_mem looped]
  rfl

/-- What is done under a new name on the stack follows a longer trail, and what
comes after it the old one. -/
theorem follows_enter_of_not_mem (inside : Nat → OnStack α) {along : Minting α}
    (follows : Follows index (trail ++ [name]) (inside (depth - 1)) along) (fresh : name ∉ trail)
    (room : 0 < depth) {next : α → OnStack β} {following : α → Minting β}
    (rest : ∀ value, Follows index trail (next value) (following value)) :
    Follows index trail (do
        let ⟨left, _⟩ ← enter depth name
        next (← thenLeave (inside left)))
      (along >>= following) := by
  have around : Follows index trail (enter depth name >>= fun left => thenLeave (inside left.1))
      along := by
    intro helpers
    rw [runFrom_bind, runFrom_enter_of_not_mem fresh room]
    change (thenLeave (inside (depth - 1))).runFrom ⟨index, helpers, trail ++ [name]⟩ = _
    rw [runFrom_thenLeave (follows helpers)]
    change some (((along.run).run helpers).1,
      (⟨index, ((along.run).run helpers).2, (trail ++ [name]).dropLast⟩ : Synthesizer)) = _
    rw [List.dropLast_concat]
    rfl
  have whole := around.bind rest
  rwa [bind_assoc] at whole

/-- A new name leaves room for the names that are still new. -/
theorem freshCount_entered {node : SchemaNode} (found : index.lookup name = some node)
    (fresh : name ∉ trail) (enough : index.freshCount trail ≤ depth) :
    0 < depth ∧ index.freshCount (trail ++ [name]) ≤ depth - 1 := by
  have fewer := SchemaIndex.freshCount_append_lt (SchemaIndex.mem_names_of_lookup found) fresh
  omega

/-! ## The synthesis follows its trail -/

theorem typeOf_follows {trail : List String} {depth : Nat}
    (enough : index.freshCount trail ≤ depth) (allowUnion : Bool) (schema : Schema) :
    Follows index trail (typeOf depth allowUnion schema)
      (Minting.ofExcept (index.typeOf trail allowUnion schema)) := by
  match schema with
  | .reference target =>
      rw [typeOf, SchemaIndex.typeOf_reference]
      refine follows_schemaIndex ?_
      cases found : index.lookup target.schemaName with
      | none => exact follows_pure _
      | some node =>
          simp only
          cases node.targetOutline target.schemaName allowUnion with
          | settled type => exact follows_pure _
          | sequenceOf element =>
              by_cases looped : target.schemaName ∈ trail
              · simp only [looped, if_true]
                exact follows_enter_of_mem looped _
              · simp only [looped, if_false]
                obtain ⟨room, left⟩ := freshCount_entered found looped enough
                rw [Minting.ofExcept_map, map_eq_pure_bind]
                exact follows_enter_of_not_mem (fun left => typeOf left allowUnion element)
                  (typeOf_follows left allowUnion element) looped room fun type => follows_pure _
  | .inline node =>
      rw [typeOf, SchemaIndex.typeOf_inline]
      split
      case h_1 type shape =>
        rw [shape]
        exact follows_pure type
      case h_2 member shape =>
        have : sizeOf member < sizeOf node :=
          SchemaNode.sizeOf_outline_part_lt (by rw [shape]; rfl)
        simp only [shape]
        exact typeOf_follows enough allowUnion member
      case h_3 element shape =>
        have : sizeOf element < sizeOf node :=
          SchemaNode.sizeOf_outline_part_lt (by rw [shape]; rfl)
        simp only [shape]
        rw [Minting.ofExcept_map]
        exact (typeOf_follows enough allowUnion element).map _
      case h_4 value shape =>
        have : sizeOf value < sizeOf node :=
          SchemaNode.sizeOf_outline_part_lt (by rw [shape]; rfl)
        simp only [shape]
        rw [Minting.ofExcept_map]
        exact (typeOf_follows enough true value).map _
termination_by (depth, sizeOf schema)

theorem mapAlias_follows (enough : index.freshCount trail ≤ depth) (node : SchemaNode) :
    Follows index trail (mapAlias depth node) (Minting.ofExcept (index.mapAlias trail node)) := by
  unfold mapAlias SchemaIndex.mapAlias
  split
  · cases node.additionalProperties with
    | none => exact follows_pure _
    | some further =>
        cases further with
        | freeForm => exact follows_pure _
        | schema value =>
            simp only
            rw [Minting.ofExcept_map]
            exact (typeOf_follows enough true value).map _
  · exact follows_pure _

theorem variantField_follows (enough : index.freshCount trail ≤ depth) (variant : Variant) :
    Follows index trail (variantField depth variant)
      (Minting.ofExcept (index.variantField trail variant)) := by
  have typed : index.variantField trail variant =
      (index.typeOf trail true variant.member).map (index.alternativeField variant) := rfl
  rw [typed, Minting.ofExcept_map, map_eq_pure_bind]
  exact (typeOf_follows enough true variant.member).bind fun type =>
    follows_schemaIndex (follows_pure _)

/-- Computations in turn follow those that they follow one by one. -/
theorem follows_mapM {items : List α} {function : α → OnStack β}
    {results : α → Except ReferenceCycle β}
    (each : ∀ item ∈ items, Follows index trail (function item) (Minting.ofExcept (results item))) :
    Follows index trail (items.mapM function) (Minting.ofExcept (items.mapM results)) := by
  induction items with
  | nil => exact follows_pure _
  | cons head tail inductionHypothesis =>
      rw [List.mapM_cons, List.mapM_cons, Minting.ofExcept_bind]
      refine (each head (by simp)).bind fun value => ?_
      rw [Minting.ofExcept_bind]
      exact (inductionHypothesis fun item listed => each item (by simp [listed])).bind fun values =>
        follows_pure _

theorem unionFields_follows (enough : index.freshCount trail ≤ depth) (node : SchemaNode) :
    Follows index trail (unionFields depth node)
      (Minting.ofExcept (index.unionFields trail node)) :=
  follows_mapM fun variant _ => variantField_follows enough variant

theorem unionDefinition_follows (enough : index.freshCount trail ≤ depth) (name : String)
    (node : SchemaNode) :
    Follows index trail (unionDefinition depth name node)
      (Minting.ofExcept (index.unionDefinition trail name node)) := by
  rw [SchemaIndex.unionDefinition, Minting.ofExcept_map]
  exact (unionFields_follows enough node).map _

mutual

theorem propertyType_follows {trail : List String} {depth : Nat}
    (enough : index.freshCount trail ≤ depth) (parent property : String) (schema : Schema) :
    Follows index trail (propertyType depth parent property schema)
      (index.propertyType trail parent property schema) := by
  cases schema with
  | reference target =>
      rw [propertyType, SchemaIndex.propertyType]
      exact typeOf_follows enough true (.reference target)
  | inline node =>
      have keeping (definition : TypeDefinition) :
          Follows index trail (do return .named (← remember definition))
            (TypeExpr.named <$> Minting.remember definition) :=
        (follows_remember definition).map TypeExpr.named
      rw [propertyType, SchemaIndex.propertyType]
      cases node.soleParentReference? with
      | some target => exact typeOf_follows enough true (.reference target)
      | none =>
          refine follows_schemaIndex ?_
          simp only
          cases node.enumeration? (index.helperName parent property) with
          | some definition => exact keeping definition
          | none =>
              simp only
              split
              · exact (unionDefinition_follows enough _ node).bind keeping
              · split
                · exact (recordDefinition_follows enough _ node).bind keeping
                · exact typeOf_follows enough true (.inline node)
termination_by (depth, sizeOf schema, 0)

theorem recordDefinition_follows {trail : List String} {depth : Nat}
    (enough : index.freshCount trail ≤ depth) (name : String)
    (node : SchemaNode) :
    Follows index trail (recordDefinition depth name node)
      (index.recordDefinition trail name node) := by
  rw [recordDefinition, SchemaIndex.recordDefinition]
  cases node.enumeration? name with
  | some definition => exact follows_pure definition
  | none =>
      refine (mapAlias_follows enough node).bind fun aliased => ?_
      cases aliased with
      | some target => exact follows_pure _
      | none =>
          simp only
          split
          · refine (typeOf_follows enough false (.inline node)).bind fun target => ?_
            cases node.normalDescription with
            | some description => exact follows_pure _
            | none => exact follows_pure _
          · refine follows_schemaIndex ?_
            refine (contribution_follows enough name (index.requiredNames node) node {}).bind
              fun own => ?_
            -- The measure needs this: the parents are looked at under the same trail.
            have := SchemaIndex.sizeOf_allOf_lt node
            exact (parents_follows enough name (index.requiredNames node) node.allOf own).bind
              fun table => follows_pure _
termination_by (depth, sizeOf node, 2)

theorem contribution_follows {trail : List String} {depth : Nat}
    (enough : index.freshCount trail ≤ depth) (parent : String)
    (required : List String) (source : SchemaNode) (table : FieldTable) :
    Follows index trail (contribution depth parent required source table)
      (index.contribution trail parent required source table) := by
  rw [contribution, SchemaIndex.contribution]
  split
  · have := SchemaIndex.sizeOf_properties_lt source
    exact properties_follows enough parent required source.properties table
  · split
    · exact (unionFields_follows enough source).bind fun fields => follows_pure _
    · exact follows_pure table
termination_by (depth, sizeOf source, 1)

theorem properties_follows {trail : List String} {depth : Nat}
    (enough : index.freshCount trail ≤ depth) (parent : String)
    (required : List String) (declared : List (String × Schema)) (table : FieldTable) :
    Follows index trail (properties depth parent required declared table)
      (index.properties trail parent required declared table) := by
  match declared with
  | [] =>
      rw [properties, SchemaIndex.properties]
      exact follows_pure table
  | (property, schema) :: rest =>
      rw [properties, SchemaIndex.properties]
      refine (propertyType_follows enough parent property schema).bind fun type =>
        follows_schemaIndex ?_
      exact properties_follows enough parent required rest _
termination_by (depth, sizeOf declared, 0)

theorem parents_follows {trail : List String} {depth : Nat}
    (enough : index.freshCount trail ≤ depth) (parent : String)
    (required : List String) (members : List Schema) (table : FieldTable) :
    Follows index trail (parents depth parent required members table)
      (index.parents trail parent required members table) := by
  match members with
  | [] =>
      rw [parents, SchemaIndex.parents]
      exact follows_pure table
  | .inline node :: rest =>
      rw [parents, SchemaIndex.parents]
      exact (contribution_follows enough parent required node table).bind fun extended =>
        parents_follows enough parent required rest extended
  | .reference target :: rest =>
      rw [parents]
      refine follows_schemaIndex ?_
      cases found : index.lookup target.schemaName with
      | none =>
          rw [SchemaIndex.parents_of_missing parent required rest table found]
          exact parents_follows enough parent required rest table
      | some node =>
          by_cases looped : target.schemaName ∈ trail
          · rw [SchemaIndex.parents_of_looped parent required rest table found looped]
            exact follows_enter_of_mem looped _
          · rw [SchemaIndex.parents_of_fresh parent required rest table found looped]
            obtain ⟨room, left⟩ := freshCount_entered found looped enough
            -- The node may be of any size: the depth pays for it.
            exact follows_enter_of_not_mem
              (fun left => contribution left parent required node table)
              (contribution_follows left parent required node table) looped room
              fun extended => parents_follows enough parent required rest extended
termination_by (depth, sizeOf members, 0)

end

end OnStack

end SchemaCompiler
