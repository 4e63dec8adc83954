import SchemaCompiler.Loading
import SchemaCompiler.Proofs.Acceptance
import SchemaCompiler.Proofs.DistinctKeys
import SchemaCompiler.Proofs.FirstOfEachKey

/-!
Contract: the index after a run of registrations.

Owns:
- `SchemaIndex.registerAll`, a run of texts registered in turn, and the
  documents it accepts;
- `SchemaIndex.MergeOf`, what the index of a list of documents holds: names in
  order of first appearance, the schema of the last declaration, one entry for
  each document;
- `SchemaIndex.mergeOf_registerAll`, by which every run leaves such an index.

Does not own: which texts are documents (`SchemaCompiler.Proofs.Acceptance`).
-/

namespace SchemaCompiler

namespace Document

/-- The names of a document's schemas in order of declaration. -/
def names (document : Document) : List String :=
  document.schemas.map Prod.fst

theorem nodup_keys_declared {value : Json} (distinct : value.DistinctKeys) :
    (Entries.keys (declared value)).Nodup := by
  rw [declared]
  cases found : value.member? "components" 2 with
  | none => exact List.nodup_nil
  | some components =>
      change (Entries.keys (declaredIn components)).Nodup
      rw [declaredIn]
      split
      · rename_i entries stored
        exact ((distinct.member found).member stored).keys
      · exact List.nodup_nil

/-- A document read from text declares no name twice. -/
theorem nodup_names_of_ofText? {text : String} {document : Document}
    (read : ofText? text = some document) : document.names.Nodup := by
  obtain ⟨value, parsed, accepted⟩ := Option.bind_eq_some_iff.1 read
  have named : document.names = Entries.keys (declared value) := by
    rw [names, (ofJson?_eq_some_iff.1 accepted).2.2, List.map_map]
    rfl
  rw [named]
  exact nodup_keys_declared (Yaml.distinctKeys_of_parseJson? parsed)

end Document

namespace SchemaIndex

/-- Registers texts in turn, each one under its path. -/
def registerAll (index : SchemaIndex) (calls : List (String × String)) : SchemaIndex :=
  calls.foldl (fun index call => index.registerText call.1 call.2) index

/-- The documents among the texts of a run, each one with its path. -/
def accepted (calls : List (String × String)) : List (String × Document) :=
  calls.filterMap fun call => (Document.ofText? call.2).map fun document => (call.1, document)

/-- True for a call whose text stands for a document. -/
def succeeds (call : String × String) : Bool :=
  (Document.ofText? call.2).isSome

/-- A rejected text leaves the index as it was. -/
theorem registerText_of_not_succeeds {call : String × String} (failed : ¬ succeeds call = true)
    (index : SchemaIndex) : index.registerText call.1 call.2 = index := by
  rw [registerText, registerText?, Option.not_isSome_iff_eq_none.1 failed]
  rfl

/-- A run does what its successful calls do. -/
theorem registerAll_filter_succeeds (index : SchemaIndex) (calls : List (String × String)) :
    index.registerAll (calls.filter succeeds) = index.registerAll calls := by
  induction calls generalizing index with
  | nil => rfl
  | cons call rest inductionHypothesis =>
      by_cases success : succeeds call = true
      · rw [List.filter_cons_of_pos success]
        exact inductionHypothesis (index.registerText call.1 call.2)
      · rw [List.filter_cons_of_neg success, inductionHypothesis]
        show _ = registerAll (index.registerText call.1 call.2) rest
        rw [registerText_of_not_succeeds success]

/-- A run registers the documents it accepts, in turn. -/
theorem registerAll_eq_foldl_accepted (index : SchemaIndex) (calls : List (String × String)) :
    index.registerAll calls =
      (accepted calls).foldl (fun index entry => index.register entry.1 entry.2) index := by
  induction calls generalizing index with
  | nil => rfl
  | cons call rest inductionHypothesis =>
      show registerAll (index.registerText call.1 call.2) rest = _
      rw [inductionHypothesis, registerText, registerText?]
      simp only [accepted, List.filterMap_cons]
      cases Document.ofText? call.2 <;> rfl

/-- What an index holds that merges documents in a given order. -/
structure MergeOf (documents : List (String × Document)) (index : SchemaIndex) : Prop where
  names : index.names = (documents.flatMap fun entry => entry.2.names).eraseDups
  stored : ∀ before path document after name schema,
    documents = before ++ (path, document) :: after → (name, schema) ∈ document.schemas →
      (∀ later ∈ after, name ∉ later.2.names) → index.schemas.find? name = some schema
  entries : index.documents =
    documents.map fun entry => ⟨entry.1, entry.2.info, entry.2.names⟩

theorem keys_foldl_insert (table : OrderedTable Schema) (schemas : List (String × Schema))
    (seen : List String) (keys : table.keys = seen.eraseDups) :
    (schemas.foldl (fun table entry => table.insert entry.1 entry.2) table).keys =
      (seen ++ schemas.map Prod.fst).eraseDups := by
  induction schemas generalizing table seen with
  | nil => simpa using keys
  | cons entry rest inductionHypothesis =>
      have inserted : (table.insert entry.1 entry.2).keys = (seen ++ [entry.1]).eraseDups := by
        rw [OrderedTable.keys_insert, keys, eraseDups_concat]
      rw [List.foldl_cons, inductionHypothesis _ _ inserted, List.append_assoc]
      rfl

theorem find?_foldl_insert_of_not_mem {schemas : List (String × Schema)} {name : String}
    (absent : name ∉ schemas.map Prod.fst) (table : OrderedTable Schema) :
    (schemas.foldl (fun table entry => table.insert entry.1 entry.2) table).find? name =
      table.find? name := by
  induction schemas generalizing table with
  | nil => rfl
  | cons entry rest inductionHypothesis =>
      rw [List.map_cons, List.mem_cons, not_or] at absent
      rw [List.foldl_cons, inductionHypothesis absent.2, OrderedTable.find?_insert,
        if_neg (Ne.symm absent.1)]

theorem find?_foldl_insert_of_mem {schemas : List (String × Schema)} {name : String}
    {schema : Schema} (distinct : (schemas.map Prod.fst).Nodup) (member : (name, schema) ∈ schemas)
    (table : OrderedTable Schema) :
    (schemas.foldl (fun table entry => table.insert entry.1 entry.2) table).find? name =
      some schema := by
  induction schemas generalizing table with
  | nil => cases member
  | cons entry rest inductionHypothesis =>
      rw [List.map_cons, List.nodup_cons] at distinct
      rcases List.mem_cons.1 member with rfl | inRest
      · rw [List.foldl_cons, find?_foldl_insert_of_not_mem distinct.1, OrderedTable.find?_insert,
          if_pos rfl]
      · exact inductionHypothesis distinct.2 inRest _

theorem mergeOf_empty : MergeOf [] {} where
  names := rfl
  stored := by
    rintro (_ | _) _ _ _ _ _ none <;> cases none
  entries := rfl

/-- Registering a document merges it as the last one. -/
theorem MergeOf.register {documents : List (String × Document)} {index : SchemaIndex}
    (merged : MergeOf documents index) (path : String) {document : Document}
    (distinct : document.names.Nodup) :
    MergeOf (documents ++ [(path, document)]) (index.register path document) where
  names := by
    rw [List.flatMap_append, List.flatMap_singleton]
    exact keys_foldl_insert index.schemas document.schemas _ merged.names
  stored := by
    intro before otherPath other after name schema split member fresh
    rcases List.eq_nil_or_concat after with rfl | ⟨init, last, rfl⟩
    · obtain ⟨-, same⟩ := List.append_inj' split rfl
      obtain ⟨⟨rfl, rfl⟩, -⟩ := List.cons.inj same
      exact find?_foldl_insert_of_mem distinct member index.schemas
    · rw [List.concat_eq_append] at split fresh
      rw [← List.cons_append, ← List.append_assoc] at split
      obtain ⟨earlier, same⟩ := List.append_inj' split rfl
      obtain ⟨rfl, -⟩ := List.cons.inj same
      rw [List.forall_mem_append, List.forall_mem_singleton] at fresh
      show (document.schemas.foldl _ index.schemas).find? name = some schema
      rw [find?_foldl_insert_of_not_mem fresh.2]
      exact merged.stored before otherPath other init name schema earlier member fresh.1
  entries := by
    rw [List.map_append, ← merged.entries]
    rfl

theorem mergeOf_foldl {documents added : List (String × Document)} {index : SchemaIndex}
    (merged : MergeOf documents index) (distinct : ∀ entry ∈ added, entry.2.names.Nodup) :
    MergeOf (documents ++ added)
      (added.foldl (fun index entry => index.register entry.1 entry.2) index) := by
  induction added generalizing documents index with
  | nil => simpa using merged
  | cons entry rest inductionHypothesis =>
      rw [List.forall_mem_cons] at distinct
      have step := merged.register entry.1 distinct.1
      simpa using inductionHypothesis step distinct.2

theorem nodup_names_of_mem_accepted {calls : List (String × String)} {entry : String × Document}
    (member : entry ∈ accepted calls) : entry.2.names.Nodup := by
  obtain ⟨call, -, found⟩ := List.mem_filterMap.1 member
  obtain ⟨document, read, rfl⟩ := Option.map_eq_some_iff.1 found
  exact Document.nodup_names_of_ofText? read

theorem mergeOf_registerAll (calls : List (String × String)) :
    MergeOf (accepted calls) (registerAll {} calls) := by
  rw [registerAll_eq_foldl_accepted]
  exact mergeOf_foldl mergeOf_empty fun _ member => nodup_names_of_mem_accepted member

/-- The table and the entries of the documents know the same names. -/
theorem MergeOf.contains_iff {documents : List (String × Document)} {index : SchemaIndex}
    (merged : MergeOf documents index) (name : String) :
    index.contains name = true ↔ ∃ entry ∈ index.documents, name ∈ entry.schemaNames := by
  have known : index.contains name = true ↔ name ∈ index.names := Entries.has_iff_mem_keys
  rw [known, merged.names, List.mem_eraseDups, merged.entries, List.mem_flatMap]
  constructor
  · rintro ⟨entry, listed, named⟩
    exact ⟨_, List.mem_map_of_mem listed, named⟩
  · rintro ⟨_, listed, named⟩
    obtain ⟨entry, stored, rfl⟩ := List.mem_map.1 listed
    exact ⟨entry, stored, named⟩

/-- Every run leaves the merge of the documents it accepts, as if the rejected
texts had not been there. -/
theorem registerAll_merges (calls : List (String × String)) :
    registerAll {} calls = registerAll {} (calls.filter succeeds) ∧
      MergeOf (accepted calls) (registerAll {} calls) ∧
        (registerAll {} calls).names.Nodup ∧
          (registerAll {} calls).size = (registerAll {} calls).names.length ∧
            ∀ name, (registerAll {} calls).contains name = true ↔
              ∃ entry ∈ (registerAll {} calls).documents, name ∈ entry.schemaNames :=
  have merged := mergeOf_registerAll calls
  ⟨(registerAll_filter_succeeds {} calls).symm, merged, OrderedTable.nodup _,
    (List.length_map Prod.fst).symm, merged.contains_iff⟩

end SchemaIndex

end SchemaCompiler
