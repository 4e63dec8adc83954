import SchemaCompiler.Proofs.Flattening
import SchemaCompiler.Proofs.Synthesis

/-!
Contract: flattening as typing first and taking up afterwards.

Owns:
- `Encounter`, an occurrence with the trail it is met under, and
  `SchemaIndex.itinerary`, what the flattening of a node meets in turn: an
  occurrence, or a cycle where a parent is on the trail already;
- `SchemaIndex.Collects`, which says of a computation on tables that it types
  what it meets in turn and then takes it all up, with a rule for each way of
  composing such computations;
- `result_recordDefinition`: a node with something to flatten comes to the record
  of its `flattened` fields, and `writes_of_flattened`: it keeps the helper types
  minted at its encounters in turn.

Types never depend on the table under construction, nor on helper types. So a
record fails when something on its itinerary does, and the table is a fold over
what it is made of.

Does not own: what the fold comes to (`SchemaCompiler.Proofs.Merging`).
-/

namespace SchemaCompiler

/-! ## Itineraries -/

/-- An occurrence with the trail it is met under. -/
structure Encounter where
  trail : List String
  occurrence : Occurrence

/-- A node that a record takes occurrences from, with the trail it is looked at
under. -/
structure Source where
  trail : List String
  node : SchemaNode

def Source.encounters (source : Source) : List Encounter :=
  source.node.occurrences.map (Encounter.mk source.trail)

namespace SchemaIndex

open Minting

/-- The source that a parent is, if it resolves. A reference is followed onto the
trail. -/
def sourceOf? (index : SchemaIndex) (trail : List String) : Schema → Option Source
  | .inline node => some ⟨trail, node⟩
  | .reference target => (index.resolve target).map (Source.mk (trail ++ [target.schemaName]))

/-- The sources that a node is flattened from: itself and its parents in order. -/
def sources (index : SchemaIndex) (trail : List String) (node : SchemaNode) : List Source :=
  ⟨trail, node⟩ :: node.allOf.filterMap (index.sourceOf? trail)

def encounters (index : SchemaIndex) (trail : List String) (node : SchemaNode) : List Encounter :=
  (index.sources trail node).flatMap Source.encounters

/-- What is met at a parent: its occurrences, or a cycle when it is a reference
back to the trail. -/
def approach (index : SchemaIndex) (trail : List String) :
    Schema → List (Except ReferenceCycle Encounter)
  | .inline node => (Source.encounters ⟨trail, node⟩).map .ok
  | .reference target =>
      match index.resolve target with
      | none => []
      | some node =>
          if target.schemaName ∈ trail then [.error ⟨trail ++ [target.schemaName]⟩]
          else (Source.encounters ⟨trail ++ [target.schemaName], node⟩).map .ok

/-- What is met in the flattening of a node, in order. -/
def itinerary (index : SchemaIndex) (trail : List String) (node : SchemaNode) :
    List (Except ReferenceCycle Encounter) :=
  (Source.encounters ⟨trail, node⟩).map .ok ++ node.allOf.flatMap (index.approach trail)

/-- The type of an occurrence in the flattening of `parent`. -/
def typeAt (index : SchemaIndex) (parent : String) (encounter : Encounter) :
    Except ReferenceCycle TypeExpr :=
  match encounter.occurrence with
  | .property name schema => (index.propertyType encounter.trail parent name schema).result
  | .alternative variant => index.typeOf encounter.trail true variant.member

/-- The helper types that are minted for an occurrence. An alternative gets none. -/
def mintedAt (index : SchemaIndex) (parent : String) (encounter : Encounter) :
    List TypeDefinition :=
  match encounter.occurrence with
  | .property name schema => (index.propertyType encounter.trail parent name schema).minted
  | .alternative _ => []

/-- An occurrence that is met, with its type. -/
def typing (index : SchemaIndex) (parent : String) (met : Except ReferenceCycle Encounter) :
    Except ReferenceCycle (Occurrence × TypeExpr) := do
  let encounter ← met
  (index.typeAt parent encounter).map (encounter.occurrence, ·)

/-- The helper types that are minted where an occurrence is met. -/
def mintedBy (index : SchemaIndex) (parent : String) :
    Except ReferenceCycle Encounter → List TypeDefinition
  | .ok encounter => index.mintedAt parent encounter
  | .error _ => []

/-- Takes up occurrences of known types in turn. -/
def takeAll (index : SchemaIndex) (required : List String) (table : FieldTable)
    (typings : List (Occurrence × TypeExpr)) : FieldTable :=
  typings.foldl (fun table typing => index.takeUp required table typing.1 typing.2) table

/-- The fields that a node is flattened into. -/
def flattened (index : SchemaIndex) (trail : List String) (name : String) (node : SchemaNode) :
    Except ReferenceCycle (List FieldDefinition) :=
  ((index.itinerary trail node).mapM (index.typing name)).map fun typings =>
    (index.takeAll (index.requiredNames node) {} typings).values

/-! ## Steady computations -/

theorem Accounts.writes {α : Type} {index : SchemaIndex} {start : Site} {known : List String}
    {mentions : α → List String} {computation : Minting α}
    (accounts : index.Accounts start known mentions computation) :
    Writes computation computation.result computation.minted := by
  obtain ⟨result, kept, writes, -⟩ := accounts
  exact writes.own

theorem writes_propertyType (index : SchemaIndex) (trail : List String)
    (parent property : String) (schema : Schema) :
    let typed := index.propertyType trail parent property schema
    Writes typed typed.result typed.minted := by
  have root : index.Descends ⟨trail, parent, schema⟩ ⟨trail, parent, schema⟩ := .here
  exact (propertyType_accounts property root).writes

theorem steady_propertyType (index : SchemaIndex) (trail : List String)
    (parent property : String) (schema : Schema) :
    Steady (index.propertyType trail parent property schema) :=
  (index.writes_propertyType trail parent property schema).steady

theorem writes_recordDefinition (index : SchemaIndex) (trail : List String) (name : String)
    (node : SchemaNode) :
    let defined := index.recordDefinition trail name node
    Writes defined defined.result defined.minted := by
  have root : index.Descends ⟨trail, name, .inline node⟩ ⟨trail, name, .inline node⟩ := .here
  exact (recordDefinition_accounts root).writes

theorem steady_recordDefinition (index : SchemaIndex) (trail : List String) (name : String)
    (node : SchemaNode) : Steady (index.recordDefinition trail name node) :=
  (index.writes_recordDefinition trail name node).steady

/-! ## Types on the way -/

variable {index : SchemaIndex} {parent : String} {required trail : List String}

theorem typing_property (name : String) (schema : Schema) :
    index.typing parent (.ok ⟨trail, .property name schema⟩) =
      (index.propertyType trail parent name schema).result.map
        (Occurrence.property name schema, ·) := rfl

/-- A property is typed by its keywords when it gets no helper type. -/
theorem typing_of_settled {node : SchemaNode} {type : TypeExpr}
    (shape : node.outline = .settled type) (single : node.isComposite = false)
    (unlisted : ∀ helper, node.enumeration? helper = none) (name : String) :
    index.typing parent (.ok ⟨trail, .property name (.inline node)⟩) =
      .ok (.property name (.inline node), type) := by
  obtain ⟨noUnion, noParents⟩ := Bool.or_eq_false_iff.1 single
  have parentless : node.allOf = [] := by simpa using noParents
  have alone : node.soleParentReference? = none := by
    simp [SchemaNode.soleParentReference?, SchemaNode.soleParent?, parentless]
  rw [typing_property, propertyType]
  simp only [alone, unlisted, noUnion, single, typeOf_of_settled shape]
  rfl

theorem typing_alternative (variant : Variant) :
    index.typing parent (.ok ⟨trail, .alternative variant⟩) =
      (index.typeOf trail true variant.member).map (Occurrence.alternative variant, ·) := rfl

/-! ## Collecting -/

/-- The computation types what it meets in turn and takes it all up, whatever the
table holds. When nothing on the way fails, the helper types that are kept are
those of the occurrences in turn. -/
structure Collects (index : SchemaIndex) (parent : String) (required : List String)
    (met : List (Except ReferenceCycle Encounter)) (computation : FieldTable → Minting FieldTable) :
    Prop where
  writes : ∀ table, ∃ kept, Writes (computation table)
    ((met.mapM (index.typing parent)).map (index.takeAll required table)) kept ∧
      ∀ typings, met.mapM (index.typing parent) = .ok typings →
        kept = met.flatMap (index.mintedBy parent)

variable {met : List (Except ReferenceCycle Encounter)}
  {computation : FieldTable → Minting FieldTable}

theorem Collects.steady (collects : index.Collects parent required met computation)
    (table : FieldTable) : Steady (computation table) := by
  obtain ⟨kept, writes, -⟩ := collects.writes table
  exact writes.steady

theorem Collects.result (collects : index.Collects parent required met computation)
    (table : FieldTable) : (computation table).result =
      (met.mapM (index.typing parent)).map (index.takeAll required table) := by
  obtain ⟨kept, writes, -⟩ := collects.writes table
  rw [Minting.result, writes]

theorem collects_nil : index.Collects parent required [] pure :=
  ⟨fun table => ⟨[], writes_pure table, fun _ _ => rfl⟩⟩

theorem Collects.of_eq {other : FieldTable → Minting FieldTable}
    (collects : index.Collects parent required met computation)
    (same : ∀ table, other table = computation table) : index.Collects parent required met other :=
  funext same ▸ collects

/-- After a cycle nothing further is met. -/
theorem collects_throw (cycle : ReferenceCycle) (further : List (Except ReferenceCycle Encounter)) :
    index.Collects parent required (.error cycle :: further) fun _ => throw cycle := by
  refine ⟨fun table => ⟨[], ?_, fun typings typed => ?_⟩⟩
  · rw [List.mapM_cons]
    exact writes_throw cycle
  · rw [List.mapM_cons] at typed
    cases typed

theorem Collects.append {further : List (Except ReferenceCycle Encounter)}
    {first second : FieldTable → Minting FieldTable}
    (own : index.Collects parent required met first)
    (others : index.Collects parent required further second) :
    index.Collects parent required (met ++ further) fun table => first table >>= second := by
  refine ⟨fun table => ?_⟩
  obtain ⟨kept, writes, ofMet⟩ := own.writes table
  rw [List.mapM_append]
  cases typed : met.mapM (index.typing parent) with
  | error cycle =>
      rw [typed] at writes
      exact ⟨kept, writes.bind_error, fun _ outcome => by cases outcome⟩
  | ok typings =>
      rw [typed] at writes
      obtain ⟨more, writesMore, ofFurther⟩ := others.writes (index.takeAll required table typings)
      have whole := writes.bind writesMore
      refine ⟨kept ++ more, ?_⟩
      cases outcome : further.mapM (index.typing parent) with
      | error cycle =>
          rw [outcome] at whole
          exact ⟨whole, fun _ absurd => by cases absurd⟩
      | ok rest =>
          rw [outcome] at whole
          refine ⟨?_, fun _ _ => ?_⟩
          · have same : index.takeAll required table (typings ++ rest) =
                index.takeAll required (index.takeAll required table typings) rest :=
              List.foldl_append
            change Writes _ (.ok (index.takeAll required table (typings ++ rest))) _
            rw [same]
            exact whole
          · rw [List.flatMap_append, ofMet typings typed, ofFurther rest outcome]

theorem collects_property (trail : List String) (name : String) (schema : Schema) :
    index.Collects parent required [.ok ⟨trail, .property name schema⟩] fun table => do
      let type ← index.propertyType trail parent name schema
      return index.withProperty table name schema type (!required.contains name) := by
  have typed := index.writes_propertyType trail parent name schema
  refine ⟨fun table => ⟨(index.propertyType trail parent name schema).minted, ?_, ?_⟩⟩
  · have outcome : [.ok ⟨trail, .property name schema⟩].mapM (index.typing parent) =
        (index.propertyType trail parent name schema).result.map fun type =>
          [(.property name schema, type)] := by
      rw [List.mapM_cons, typing_property]
      cases (index.propertyType trail parent name schema).result <;> rfl
    rw [outcome]
    cases result : (index.propertyType trail parent name schema).result with
    | error cycle =>
        simp only [result] at typed
        exact typed.bind_error
    | ok type =>
        simp only [result] at typed
        exact typed.map fun type =>
          index.withProperty table name schema type (!required.contains name)
  · intro typings _
    rw [List.flatMap_singleton]
    rfl

theorem collects_properties (declared : List (String × Schema)) :
    index.Collects parent required
      (declared.map fun entry => .ok ⟨trail, .property entry.1 entry.2⟩)
      (index.properties trail parent required declared) := by
  induction declared with
  | nil => exact collects_nil.of_eq fun table => by rw [properties]
  | cons entry rest others =>
      obtain ⟨property, schema⟩ := entry
      refine ((collects_property trail property schema).append others).of_eq fun table => ?_
      rw [properties, bind_assoc]
      simp only [pure_bind]

theorem mapM_typing_alternatives (variants : List Variant) (table : FieldTable) :
    ((variants.map fun variant => .ok ⟨trail, .alternative variant⟩).mapM
        (index.typing parent)).map (index.takeAll required table) =
      (variants.mapM (index.variantField trail)).map table.addAbsent := by
  induction variants generalizing table with
  | nil => rfl
  | cons variant rest inductionHypothesis =>
      rw [List.map_cons, List.mapM_cons, List.mapM_cons, typing_alternative, variantField]
      cases index.typeOf trail true variant.member with
      | error cycle => rfl
      | ok type =>
          -- The two tails come to the same by the hypothesis, whatever they are.
          have further := inductionHypothesis
            (index.takeUp required table (.alternative variant) type)
          revert further
          generalize (rest.map _).mapM (index.typing parent) = typings
          generalize rest.mapM (index.variantField trail) = fields
          intro further
          cases typings <;> cases fields <;> exact further

theorem collects_alternatives (trail : List String) (source : SchemaNode) :
    index.Collects parent required
      ((Variant.ofNode source).map fun variant => .ok ⟨trail, .alternative variant⟩) fun table => do
        let fields ← Minting.ofExcept (index.unionFields trail source)
        return table.addAbsent fields := by
  refine ⟨fun table => ⟨[], ?_, fun typings _ => ?_⟩⟩
  · rw [mapM_typing_alternatives]
    cases made : (Variant.ofNode source).mapM (index.variantField trail) with
    | error cycle =>
        rw [unionFields, made]
        exact (writes_ofExcept _).bind_error
    | ok fields =>
        rw [unionFields, made]
        exact (writes_ofExcept _).map table.addAbsent
  · rw [List.flatMap_map]
    exact (List.flatMap_eq_nil_iff.2 fun _ _ => rfl).symm

theorem collects_contribution (trail : List String) (source : SchemaNode) :
    index.Collects parent required ((Source.encounters ⟨trail, source⟩).map .ok)
      (index.contribution trail parent required source) := by
  have met : (Source.encounters ⟨trail, source⟩).map (Except.ok (ε := ReferenceCycle)) =
      source.occurrences.map fun occurrence => .ok ⟨trail, occurrence⟩ := List.map_map
  rw [met, SchemaNode.occurrences]
  split
  · rename_i declares
    rw [List.map_map]
    exact (collects_properties source.properties).of_eq fun table => by
      rw [contribution, if_pos declares]
  · rename_i bare
    rw [List.map_map]
    by_cases union : source.isUnion = true
    · exact (collects_alternatives trail source).of_eq fun table => by
        rw [contribution, if_neg bare, if_pos union]
    · rw [Variant.ofNode_of_not_isUnion union]
      exact collects_nil.of_eq fun table => by rw [contribution, if_neg bare, if_neg union]

theorem collects_parents (trail : List String) (members : List Schema) :
    index.Collects parent required (members.flatMap (index.approach trail))
      (index.parents trail parent required members) := by
  induction members with
  | nil => exact collects_nil.of_eq fun table => by rw [parents]
  | cons member rest others =>
      -- One case for each way of going on: a node, a target that is missing, on the trail or new.
      rw [List.flatMap_cons]
      cases member with
      | inline source =>
          exact ((collects_contribution trail source).append others).of_eq fun table => by
            rw [parents]
      | reference target =>
          cases found : index.lookup target.schemaName with
          | none =>
              have missing : index.approach trail (.reference target) = [] := by
                simp only [approach, resolve, found]
              rw [missing, List.nil_append]
              exact others.of_eq fun table => parents_of_missing parent required rest table found
          | some source =>
              by_cases visited : target.schemaName ∈ trail
              · have cycle : index.approach trail (.reference target) =
                    [.error ⟨trail ++ [target.schemaName]⟩] := by
                  simp only [approach, resolve, found, visited, if_true]
                rw [cycle]
                exact (collects_throw _ _).of_eq fun table =>
                  parents_of_looped parent required rest table found visited
              · have stepped : index.approach trail (.reference target) =
                    (Source.encounters ⟨trail ++ [target.schemaName], source⟩).map .ok := by
                  simp only [approach, resolve, found, visited, if_false]
                rw [stepped]
                exact ((collects_contribution _ source).append others).of_eq fun table =>
                  parents_of_fresh parent required rest table found visited

/-- The table of a record is collected along the itinerary of its node. -/
theorem collects_record (trail : List String) (node : SchemaNode) :
    index.Collects parent required (index.itinerary trail node) fun table =>
      index.contribution trail parent required node table >>=
        index.parents trail parent required node.allOf :=
  (collects_contribution trail node).append (collects_parents trail node.allOf)

/-! ## Encounters -/

/-- Without a cycle all occurrences of a source are met. -/
theorem approach_cases (index : SchemaIndex) (trail : List String) (member : Schema) :
    index.approach trail member =
        ((index.sourceOf? trail member).toList.flatMap Source.encounters).map .ok ∨
      ∃ cycle, index.approach trail member = [.error cycle] := by
  cases member with
  | inline node => exact Or.inl (by simp [approach, sourceOf?])
  | reference target =>
      cases found : index.resolve target with
      | none => exact Or.inl (by simp [approach, sourceOf?, found])
      | some node =>
          by_cases visited : target.schemaName ∈ trail
          · exact Or.inr ⟨⟨trail ++ [target.schemaName]⟩, by simp [approach, found, visited]⟩
          · exact Or.inl (by simp [approach, sourceOf?, found, visited])

variable {node : SchemaNode} {typings : List (Occurrence × TypeExpr)}

/-- A node that is typed throughout meets no cycle. -/
theorem itinerary_eq_of_mapM_ok
    (typed : (index.itinerary trail node).mapM (index.typing parent) = .ok typings) :
    index.itinerary trail node = (index.encounters trail node).map .ok := by
  have approached : ∀ member ∈ node.allOf, index.approach trail member =
      ((index.sourceOf? trail member).toList.flatMap Source.encounters).map .ok := by
    intro member listed
    refine (index.approach_cases trail member).resolve_right ?_
    rintro ⟨cycle, same⟩
    -- A cycle on the way would be an item without a type.
    have met : .error cycle ∈ index.itinerary trail node := by
      refine List.mem_append_right _ (List.mem_flatMap.2 ⟨member, listed, ?_⟩)
      exact same ▸ List.mem_singleton_self _
    obtain ⟨typing, outcome⟩ := exists_mapM_ok_iff.1 ⟨typings, typed⟩ _ met
    cases outcome
  rw [itinerary, List.flatMap_congr approached, encounters, sources, List.flatMap_cons,
    List.map_append, List.filterMap_eq_flatMap_toList, List.flatMap_assoc, List.map_flatMap]

/-- Each encounter has its type, in order. -/
theorem forall₂_encounters
    (typed : (index.itinerary trail node).mapM (index.typing parent) = .ok typings) :
    List.Forall₂ (fun encounter typing => encounter.occurrence = typing.1 ∧
      index.typeAt parent encounter = .ok typing.2) (index.encounters trail node) typings := by
  have paired := forall₂_of_mapM_ok typed
  rw [itinerary_eq_of_mapM_ok typed, List.forall₂_map_left_iff] at paired
  refine paired.imp fun encounter typing outcome => ?_
  obtain ⟨type, typed, rfl⟩ := exists_of_map_eq_ok outcome
  exact ⟨rfl, typed⟩

theorem nodes_sources (index : SchemaIndex) (trail : List String) (node : SchemaNode) :
    (index.sources trail node).map Source.node = node :: node.allOf.filterMap index.nodeOf := by
  have resolved : ∀ member,
      (index.sourceOf? trail member).map Source.node = index.nodeOf member := by
    intro member
    cases member <;> simp [sourceOf?, nodeOf, Function.comp_def]
  simp only [sources, List.map_cons, List.map_filterMap, resolved]

/-- What is met for a node are its occurrences. -/
theorem occurrences_encounters (index : SchemaIndex) (trail : List String) (node : SchemaNode) :
    (index.encounters trail node).map Encounter.occurrence = index.occurrences node := by
  have each : ∀ source : Source,
      source.encounters.map Encounter.occurrence = source.node.occurrences := by
    intro source
    simp [Source.encounters, Function.comp_def]
  rw [encounters, List.map_flatMap, funext each, ← List.flatMap_map, nodes_sources]
  rfl

theorem occurrences_of_mapM_ok
    (typed : (index.itinerary trail node).mapM (index.typing parent) = .ok typings) :
    typings.map Prod.fst = index.occurrences node := by
  have same : List.Forall₂ Eq ((index.encounters trail node).map Encounter.occurrence)
      (typings.map Prod.fst) := by
    rw [List.forall₂_map_left_iff, List.forall₂_map_right_iff]
    exact (forall₂_encounters typed).imp fun _ _ both => both.1
  rw [List.forall₂_eq_eq_eq, occurrences_encounters] at same
  exact same.symm

/-! ## Records -/

variable {name : String}

/-- The last case of `recordDefinition`. -/
theorem assembled_record (index : SchemaIndex) (trail : List String) (name : String)
    (node : SchemaNode) (assemble : List FieldDefinition → TypeDefinition) :
    let assembling : Minting TypeDefinition := do
      let own ← index.contribution trail name (index.requiredNames node) node {}
      let table ← index.parents trail name (index.requiredNames node) node.allOf own
      return assemble table.values
    Steady assembling ∧ assembling.result = (index.flattened trail name node).map assemble := by
  have collects : index.Collects name (index.requiredNames node) (index.itinerary trail node) _ :=
    collects_record trail node
  have ending : ∀ table : FieldTable, Steady (pure (assemble table.values) : Minting _) :=
    fun table => steady_pure _
  simp only
  rw [← bind_assoc]
  refine ⟨(collects.steady {}).bind ending, ?_⟩
  rw [result_bind ending, collects.result, flattened]
  cases (index.itinerary trail node).mapM (index.typing name) <;> rfl

/-- What a node comes to that has something to flatten. -/
theorem result_recordDefinition (composed : node.isEmptySchema = false) :
    (index.recordDefinition trail name node).result =
      match node.enumeration? name with
      | some definition => .ok definition
      | none => index.mapAlias trail node >>= fun
        | some target => .ok (.transparentAlias (Naming.exportedName name) target)
        | none => (index.flattened trail name node).map fun fields =>
            .record (Naming.exportedName name) node.normalDescription fields := by
  obtain ⟨steady, assembled⟩ := index.assembled_record trail name node
    (.record (Naming.exportedName name) node.normalDescription)
  rw [recordDefinition]
  cases node.enumeration? name with
  | some definition => rfl
  | none =>
      simp only [composed]
      rw [result_bind]
      · refine congrArg (index.mapAlias trail node >>= ·) (funext fun aliased => ?_)
        cases aliased with
        | some target => rfl
        | none => exact assembled
      · intro aliased
        cases aliased with
        | some target => exact steady_pure _
        | none => exact steady

/-- The fields of a flattened record are those that its node is flattened into. -/
theorem flattened_of_recordDefinition {definition : TypeDefinition} {fields : List FieldDefinition}
    (built : Yields (index.recordDefinition trail name node) definition)
    (flattened : definition.shape = .record fields) :
    index.flattened trail name node = .ok fields := by
  obtain ⟨steady, assembled⟩ := index.assembled_record trail name node
    (.record (Naming.exportedName name) node.normalDescription)
  rw [recordDefinition_eq_of_flattened built flattened] at built
  have made := steady.yields_iff.1 built
  rw [assembled] at made
  obtain ⟨all, outcome, rfl⟩ := exists_of_map_eq_ok made
  cases flattened
  exact outcome

/-- A flattened record keeps the helper types of its occurrences in turn. -/
theorem writes_of_flattened {definition : TypeDefinition} {fields : List FieldDefinition}
    (built : Yields (index.recordDefinition trail name node) definition)
    (flattened : definition.shape = .record fields) :
    Writes (index.recordDefinition trail name node) (.ok definition)
      ((index.encounters trail node).flatMap (index.mintedAt name)) := by
  obtain ⟨typings, typed, -⟩ := exists_of_map_eq_ok (flattened_of_recordDefinition built flattened)
  have collects : index.Collects name (index.requiredNames node) (index.itinerary trail node) _ :=
    collects_record trail node
  obtain ⟨kept, writes, ofMet⟩ := collects.writes {}
  have met := ofMet typings typed
  rw [itinerary_eq_of_mapM_ok typed, List.flatMap_map] at met
  rw [typed, met] at writes
  have assembled : Writes (index.recordDefinition trail name node)
      (.ok (.record (Naming.exportedName name) node.normalDescription
        (index.takeAll (index.requiredNames node) {} typings).values))
      ((index.encounters trail node).flatMap (index.mintedAt name)) := by
    rw [recordDefinition_eq_of_flattened built flattened, ← bind_assoc, ← map_eq_pure_bind]
    exact writes.map _
  have made := assembled.steady.yields_iff.1 built
  rw [Minting.result, assembled] at made
  cases made
  exact assembled

end SchemaIndex

end SchemaCompiler
