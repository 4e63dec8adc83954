import SchemaCompiler.Model.Rendering
import SchemaCompiler.Proofs.Naming

/-!
Contract: types are told apart by their texts.

Owns:
- `TypeExpr.Exported`, the types without a text taken as written whose names are
  exported ones;
- `TypeExpr.ofChars`, which reads a text as a type, and `ofChars_text`, by which
  reading undoes writing;
- `TypeExpr.text_determines`: types with one text are the same, no name reads as
  a built-in type or as a collection, and a model that is handed on as text has
  the types that can be read in it.

A name begins in upper case; the built-in types and what is written before a
collection or an optional type do not.

Does not own: which names a model mentions.
-/

namespace SchemaCompiler

namespace TypeExpr

/-! ## Types without verbatim texts -/

/-- Nothing in the type was taken as written from a manifest. -/
def isStructured : TypeExpr → Bool
  | .sequence element => element.isStructured
  | .map value => value.isStructured
  | .optional base => base.isStructured
  | .verbatim _ => false
  | _ => true

/-- A structured type that mentions exported names only, none of them empty. -/
structure Exported (type : TypeExpr) : Prop where
  structured : type.isStructured = true
  leaves : ∀ leaf ∈ type.namedLeaves, leaf ≠ "" ∧ ∃ source, Naming.exportedName source = leaf

theorem Exported.canonical {name : String} (exported : (named name).Exported) :
    Naming.Canonical name := by
  obtain ⟨nonempty, source, rfl⟩ := exported.leaves name (List.mem_singleton_self name)
  exact Naming.canonical_exportedName nonempty

/-! ## Reading a text -/

/-- The types that are written as one word. -/
def words : List TypeExpr :=
  [.string, .integer, .int, .float, .boolean, .any]

/-- The type of one word: a built-in one, or else a name. -/
def ofWord (word : String) : TypeExpr :=
  (words.find? fun type => type.text = word).getD (.named word)

/-- The type that a text is written for. -/
def ofChars : List Char → TypeExpr
  | '[' :: ']' :: rest => .sequence (ofChars rest)
  | '*' :: rest => .optional (ofChars rest)
  | 'm' :: 'a' :: 'p' :: '[' :: 's' :: 't' :: 'r' :: 'i' :: 'n' :: 'g' :: ']' :: rest =>
      .map (ofChars rest)
  | word => ofWord (String.ofList word)

/-- No built-in word begins in upper case. -/
theorem not_isUpper_of_mem_words {type : TypeExpr} (listed : type ∈ words) :
    ∀ first ∈ type.text.toList.head?, first.isUpper = false := by
  have lower : (words.all fun other =>
      other.text.toList.head?.all fun first => !first.isUpper) = true := by
    decide +kernel
  intro first leads
  have leading := (Option.all_eq_true _ _).1 (List.all_eq_true.1 lower type listed) first leads
  simpa using leading

theorem ofWord_canonical {name : String} (canonical : Naming.Canonical name) :
    ofWord name = .named name := by
  obtain ⟨first, rest, shape, upper, -⟩ := canonical
  have none : words.find? (fun type => type.text = name) = none := by
    refine List.find?_eq_none.2 fun type listed same => ?_
    have lower := not_isUpper_of_mem_words listed first (by
      rw [of_decide_eq_true same, shape]
      rfl)
    rw [upper] at lower
    cases lower
  rw [ofWord, none, Option.getD_none]

/-- Reading undoes writing. -/
theorem ofChars_text {type : TypeExpr} (exported : type.Exported) :
    ofChars type.text.toList = type := by
  induction type with
  | string | integer | int | float | boolean | any => decide +kernel
  | sequence element inductionHypothesis =>
      rw [text, String.toList_append]
      exact congrArg sequence (inductionHypothesis ⟨exported.structured, exported.leaves⟩)
  | map value inductionHypothesis =>
      rw [text, String.toList_append]
      exact congrArg map (inductionHypothesis ⟨exported.structured, exported.leaves⟩)
  | optional base inductionHypothesis =>
      rw [text, String.toList_append]
      exact congrArg optional (inductionHypothesis ⟨exported.structured, exported.leaves⟩)
  | named name =>
      have canonical := exported.canonical
      obtain ⟨first, rest, shape, upper, -⟩ := id canonical
      have other {character : Char} (lower : character.isUpper = false) : first ≠ character := by
        rintro rfl
        rw [upper] at lower
        cases lower
      rw [text, shape, ofChars.eq_4 _
        (fun _ same => other (by decide) (List.cons.inj same).1)
        (fun _ same => other (by decide) (List.cons.inj same).1)
        (fun _ same => other (by decide) (List.cons.inj same).1), ← shape, String.ofList_toList]
      exact ofWord_canonical canonical
  | verbatim written => cases exported.structured

theorem map_ofChars_text {types : List TypeExpr} (exported : ∀ type ∈ types, type.Exported) :
    (types.map text).map (fun written => ofChars written.toList) = types := by
  rw [List.map_map]
  exact (List.map_congr_left fun type listed => ofChars_text (exported type listed)).trans
    (List.map_id types)

/-- A structured type that is no name does not begin in upper case. -/
theorem not_isUpper_text {type : TypeExpr} (structured : type.isStructured = true)
    (other : ∀ name, type ≠ .named name) :
    ∀ first ∈ type.text.toList.head?, first.isUpper = false := by
  intro first leads
  cases type with
  | string | integer | int | float | boolean | any =>
      exact not_isUpper_of_mem_words (by decide) first leads
  | sequence element =>
      rw [text, String.toList_append] at leads
      cases leads
      rfl
  | map value =>
      rw [text, String.toList_append] at leads
      cases leads
      rfl
  | optional base =>
      rw [text, String.toList_append] at leads
      cases leads
      rfl
  | named name => exact absurd rfl (other name)
  | verbatim written => cases structured

/-- Nothing but the name itself is written like a name. -/
theorem eq_named_of_text {type : TypeExpr} (structured : type.isStructured = true)
    (canonical : Naming.Canonical type.text) : type = .named type.text := by
  obtain ⟨first, rest, shape, upper, -⟩ := canonical
  by_cases other : ∀ name, type ≠ .named name
  · have lower := not_isUpper_text structured other first (by rw [shape]; rfl)
    rw [upper] at lower
    cases lower
  · push Not at other
    obtain ⟨name, rfl⟩ := other
    rfl

end TypeExpr

/-! ## Models handed on as text -/

theorem map_eq_of_map_eq {α β γ : Type} {function : α → β} {part : α → γ}
    (determines : ∀ {left right}, function left = function right → part left = part right)
    {left right : List α} (same : left.map function = right.map function) :
    left.map part = right.map part := by
  induction left generalizing right with
  | nil =>
      cases right with
      | nil => rfl
      | cons => cases same
  | cons head tail inductionHypothesis =>
      cases right with
      | nil => cases same
      | cons other rest =>
          obtain ⟨heads, tails⟩ := List.cons.inj same
          rw [List.map_cons, List.map_cons, determines heads, inductionHypothesis tails]

namespace FieldDefinition

/-- The types of fields, in order. -/
def typesOf (fields : List FieldDefinition) : List TypeExpr :=
  fields.map FieldDefinition.type

theorem texts_eq_of_listToJson {left right : List FieldDefinition}
    (same : listToJson left = listToJson right) :
    (typesOf left).map TypeExpr.text = (typesOf right).map TypeExpr.text := by
  rw [typesOf, typesOf, List.map_map, List.map_map]
  refine map_eq_of_map_eq (fun fields => ?_) (Json.array.inj same)
  simp only [toJson, Json.object.injEq, List.cons.injEq, Prod.mk.injEq, Json.string.injEq] at fields
  exact fields.2.2.1.2

end FieldDefinition

theorem TypeDefinition.texts_eq_of_toJson {left right : TypeDefinition}
    (same : left.toJson = right.toJson) :
    left.types.map TypeExpr.text = right.types.map TypeExpr.text := by
  simp only [toJson, Json.object.injEq, List.cons.injEq, Prod.mk.injEq] at same
  have shapes := same.2.1.2
  unfold types
  cases atLeft : left.shape <;> cases atRight : right.shape <;>
    simp only [atLeft, atRight, TypeShape.toJson, Json.object.injEq, List.cons.injEq,
      Prod.mk.injEq, Json.string.injEq, true_and, and_true] at shapes ⊢
  case record.record fields others => exact FieldDefinition.texts_eq_of_listToJson shapes
  case alias.alias => exact congrArg (fun text => [text]) shapes.1
  case enumeration.enumeration => exact congrArg (fun text => [text]) shapes.1
  all_goals simp at shapes

theorem ResourceDefinition.texts_eq_of_toJson {left right : ResourceDefinition}
    (same : left.toJson = right.toJson) :
    [(FieldDefinition.typesOf left.inputs).map TypeExpr.text,
        (FieldDefinition.typesOf left.outputs).map TypeExpr.text] =
      [(FieldDefinition.typesOf right.inputs).map TypeExpr.text,
        (FieldDefinition.typesOf right.outputs).map TypeExpr.text] := by
  simp only [toJson, Json.object.injEq, List.cons.injEq, Prod.mk.injEq] at same
  obtain ⟨-, -, -, -, -, -, ⟨-, inputs⟩, ⟨-, outputs⟩, -⟩ := same
  rw [FieldDefinition.texts_eq_of_listToJson inputs, FieldDefinition.texts_eq_of_listToJson outputs]

namespace CompiledModel

/-- The types of a model where they stand: of each generated type, and of the
inputs and the outputs of each resource. -/
def typeLists (model : CompiledModel) : List (List TypeExpr) :=
  model.types.map TypeDefinition.types ++ model.resources.flatMap fun resource =>
    [FieldDefinition.typesOf resource.inputs, FieldDefinition.typesOf resource.outputs]

/-- The texts of a model's types can be read in what is handed on. -/
theorem texts_eq_of_toJson {left right : CompiledModel} (same : left.toJson = right.toJson) :
    left.typeLists.map (List.map TypeExpr.text) = right.typeLists.map (List.map TypeExpr.text) := by
  simp only [toJson, Json.object.injEq, List.cons.injEq, Prod.mk.injEq, Json.array.injEq] at same
  obtain ⟨-, ⟨-, types⟩, ⟨-, resources⟩, -⟩ := same
  have ofTypes : (left.types.map fun definition => definition.types.map TypeExpr.text) =
      right.types.map fun definition => definition.types.map TypeExpr.text :=
    map_eq_of_map_eq TypeDefinition.texts_eq_of_toJson types
  have ofResources := map_eq_of_map_eq ResourceDefinition.texts_eq_of_toJson resources
  simp only [typeLists, List.map_append, List.map_map, Function.comp_def, List.map_flatMap,
    List.map_cons, List.map_nil]
  rw [ofTypes, List.flatMap_def, List.flatMap_def, ofResources]

theorem typeLists_eq_of_toJson {left right : CompiledModel}
    (ofLeft : ∀ types ∈ left.typeLists, ∀ type ∈ types, type.Exported)
    (ofRight : ∀ types ∈ right.typeLists, ∀ type ∈ types, type.Exported)
    (same : left.toJson = right.toJson) : left.typeLists = right.typeLists := by
  have read {lists : List (List TypeExpr)}
      (exported : ∀ types ∈ lists, ∀ type ∈ types, type.Exported) :
      (lists.map (List.map TypeExpr.text)).map
        (List.map fun written => TypeExpr.ofChars written.toList) = lists := by
    rw [List.map_map]
    exact (List.map_congr_left fun types listed =>
      TypeExpr.map_ofChars_text (exported types listed)).trans (List.map_id lists)
  rw [← read ofLeft, texts_eq_of_toJson same, read ofRight]

end CompiledModel

/-- The text of a type determines the type, for types without verbatim texts whose
names are exported and not empty. No text but that of the name itself is such a
name. So a model, which has its types handed on as texts alone, is handed on
with the types that can be read in it. -/
theorem TypeExpr.text_determines :
    (∀ left right : TypeExpr, left.Exported → right.Exported → left.text = right.text →
      left = right) ∧
    (∀ (type : TypeExpr) (source : String), type.isStructured = true →
      Naming.exportedName source ≠ "" → type.text = Naming.exportedName source →
        type = .named (Naming.exportedName source)) ∧
    ∀ left right : CompiledModel,
      (∀ types ∈ left.typeLists, ∀ type ∈ types, type.Exported) →
      (∀ types ∈ right.typeLists, ∀ type ∈ types, type.Exported) →
        left.toJson = right.toJson → left.typeLists = right.typeLists := by
  refine ⟨fun left right ofLeft ofRight same => ?_, fun type source structured nonempty same => ?_,
    fun _ _ => CompiledModel.typeLists_eq_of_toJson⟩
  · rw [← ofChars_text ofLeft, same, ofChars_text ofRight]
  · have canonical := Naming.canonical_exportedName nonempty
    rw [← same] at canonical ⊢
    exact eq_named_of_text structured canonical

namespace TypeExpr

/-- A mapping of sequences of disks. -/
def disksType : TypeExpr :=
  .map (.sequence (.named "Disk"))

theorem exported_disksType : disksType.Exported :=
  ⟨rfl, fun leaf listed => by
    obtain rfl := List.mem_singleton.1 listed
    exact ⟨by decide, "disk", by decide⟩⟩

/-- A model with one alias, of the given type. -/
def aliasModel (type : TypeExpr) : CompiledModel :=
  { sdkVersion := none, types := [.transparentAlias "Disks" type], resources := [], dangling := [] }

theorem exported_typeLists_aliasModel {type : TypeExpr} (exported : type.Exported) :
    ∀ types ∈ (aliasModel type).typeLists, ∀ other ∈ types, other.Exported := by
  intro types listed other member
  obtain rfl := List.mem_singleton.1 listed
  obtain rfl := List.mem_singleton.1 member
  exact exported

/-- The text of the mapping is read as the mapping, also where a model hands it on,
and that of a disk as the name of its type. -/
theorem text_determines_disks :
    ofChars "map[string][]Disk".toList = disksType ∧
      TypeExpr.named "Disk" = .named (Naming.exportedName "disk") ∧
      (aliasModel (ofChars "map[string][]Disk".toList)).typeLists = [[disksType]] := by
  have read : (ofChars "map[string][]Disk".toList).Exported := by
    have same : ofChars "map[string][]Disk".toList = disksType := by decide +kernel
    exact same ▸ exported_disksType
  have written : (ofChars "map[string][]Disk".toList).text = disksType.text := by decide +kernel
  refine ⟨text_determines.1 _ _ read exported_disksType written,
    text_determines.2.1 _ "disk" rfl (by decide) (by decide), ?_⟩
  refine text_determines.2.2 _ (aliasModel disksType) (exported_typeLists_aliasModel read)
    (exported_typeLists_aliasModel exported_disksType) ?_
  simp only [aliasModel, CompiledModel.toJson, TypeDefinition.toJson,
    TypeDefinition.transparentAlias, TypeShape.toJson, written, List.map_cons, List.map_nil]

end TypeExpr

end SchemaCompiler
