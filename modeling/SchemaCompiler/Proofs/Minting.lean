import SchemaCompiler.Proofs.FirstOfEachName

/-!
Contract: what a minting computation leaves behind.

Owns:
- `HelperTable.keepAll`, the table after helper types are kept in turn:
  `values_keepAll` says that it grows at the end, by the first of each new name,
  and `find?_keepAll` what is found under a name;
- `Minting.Writes`, which says that a computation gives one result and keeps
  one list of helper types whatever the table holds, with a rule for each way
  of composing computations;
- `Minting.result` and `Minting.Steady`, the result alone, for statements that
  do not ask which helper types are kept, and `Minting.minted`, these helper
  types alone.

A computation that `Writes` takes nothing from the table. That is what makes a
shared table and a fresh one indistinguishable.

Does not own: which computations write what (`SchemaCompiler.Proofs.Account`).
-/

namespace SchemaCompiler

/-! ## Tables -/

theorem OrderedTable.eq_of_entries {α : Type} {left right : OrderedTable α}
    (same : left.entries = right.entries) : left = right := by
  cases left
  cases right
  cases same
  rfl

namespace HelperTable

/-- The table after a helper type is kept; the first definition of a name
stays. -/
def keep (helpers : HelperTable) (definition : TypeDefinition) : HelperTable :=
  if helpers.has definition.name then helpers else helpers.insert definition.name definition

/-- The table after helper types are kept in turn. -/
def keepAll (helpers : HelperTable) (minted : List TypeDefinition) : HelperTable :=
  minted.foldl keep helpers

theorem keepAll_append (helpers : HelperTable) (left right : List TypeDefinition) :
    helpers.keepAll (left ++ right) = (helpers.keepAll left).keepAll right :=
  List.foldl_append

private theorem keep_of_mem {helpers : HelperTable} {definition : TypeDefinition}
    (found : definition.name ∈ helpers.keys) : helpers.keep definition = helpers :=
  if_pos (Entries.has_iff_mem_keys.2 found)

private theorem entries_keep_of_not_mem {helpers : HelperTable} {definition : TypeDefinition}
    (absent : definition.name ∉ helpers.keys) :
    (helpers.keep definition).entries = helpers.entries ++ [(definition.name, definition)] := by
  have missing : ¬ helpers.has definition.name = true := fun found =>
    absent (Entries.has_iff_mem_keys.1 found)
  unfold keep
  rw [if_neg missing]
  exact Entries.insert_of_not_mem absent definition

/-- A table grows at its end, by the first definition of each new name. -/
theorem entries_keepAll (helpers : HelperTable) (minted : List TypeDefinition) :
    (helpers.keepAll minted).entries =
      helpers.entries ++
        (firstOfEachName helpers.keys minted).map fun definition =>
          (definition.name, definition) := by
  induction minted generalizing helpers with
  | nil => simp [keepAll, firstOfEachName]
  | cons head tail inductionHypothesis =>
      change ((helpers.keep head).keepAll tail).entries = _
      rw [inductionHypothesis]
      by_cases found : head.name ∈ helpers.keys
      · simp only [keep_of_mem found, firstOfEachName, found, if_true]
      · have grown := entries_keep_of_not_mem found
        have keys : ∀ name, name ∈ (helpers.keep head).keys ↔ name ∈ head.name :: helpers.keys := by
          intro name
          simp only [OrderedTable.keys, Entries.keys, grown, List.map_append, List.map_cons,
            List.map_nil, List.mem_append, List.mem_cons, List.not_mem_nil, or_false]
          exact or_comm
        rw [grown, firstOfEachName_congr keys]
        simp only [firstOfEachName, found, if_false, List.map_cons, List.append_assoc,
          List.cons_append, List.nil_append]

theorem values_keepAll (helpers : HelperTable) (minted : List TypeDefinition) :
    (helpers.keepAll minted).values = helpers.values ++ firstOfEachName helpers.keys minted := by
  simp [OrderedTable.values, entries_keepAll, Function.comp_def]

/-- Keeping only the first of each name leaves the same table. -/
theorem keepAll_firstOfEachName (helpers : HelperTable) (minted : List TypeDefinition) :
    helpers.keepAll (firstOfEachName [] minted) = helpers.keepAll minted := by
  apply OrderedTable.eq_of_entries
  rw [entries_keepAll, entries_keepAll, firstOfEachName_firstOfEachName (by simp)]

/-- A table that has grown is cut back to what it was. -/
theorem truncate_keepAll (helpers : HelperTable) (minted : List TypeDefinition) :
    (helpers.keepAll minted).truncate helpers.size = helpers := by
  apply OrderedTable.eq_of_entries
  change (helpers.keepAll minted).entries.take helpers.entries.length = helpers.entries
  rw [entries_keepAll]
  exact List.take_left' rfl

theorem mem_keys_keepAll {helpers : HelperTable} {minted : List TypeDefinition} {name : String} :
    name ∈ (helpers.keepAll minted).keys ↔
      name ∈ helpers.keys ∨ name ∈ minted.map TypeDefinition.name := by
  have keys : (helpers.keepAll minted).keys =
      helpers.keys ++ (firstOfEachName helpers.keys minted).map TypeDefinition.name := by
    simp [OrderedTable.keys, Entries.keys, entries_keepAll, Function.comp_def]
  rw [keys, List.mem_append, mem_names_firstOfEachName]
  by_cases found : name ∈ helpers.keys <;> simp [found]

/-- What is in the table stays there. -/
theorem find?_keepAll_of_some {helpers : HelperTable} {name : String}
    {definition : TypeDefinition} (stored : helpers.find? name = some definition)
    (minted : List TypeDefinition) : (helpers.keepAll minted).find? name = some definition := by
  induction minted generalizing helpers with
  | nil => exact stored
  | cons head tail inductionHypothesis =>
      refine inductionHypothesis ?_
      unfold keep
      split
      · exact stored
      · rename_i new
        have other : head.name ≠ name := fun same =>
          new (Entries.has_iff_mem_keys.2 (same ▸ Entries.mem_keys_of_find? stored))
        rw [OrderedTable.find?_insert, if_neg other, stored]

/-- A name that is new to the table gets the first definition kept under it. -/
theorem find?_keepAll_of_not_mem {helpers : HelperTable} {name : String}
    (unknown : name ∉ helpers.keys) (minted : List TypeDefinition) :
    (helpers.keepAll minted).find? name =
      minted.find? fun definition => definition.name = name := by
  induction minted generalizing helpers with
  | nil => exact Option.eq_none_iff_forall_ne_some.2 fun definition stored =>
      unknown (Entries.mem_keys_of_find? stored)
  | cons head tail inductionHypothesis =>
      by_cases same : head.name = name
      · have new : ¬ helpers.has head.name = true := fun found =>
          unknown (same ▸ Entries.has_iff_mem_keys.1 found)
        have stored : (helpers.keep head).find? name = some head := by
          rw [keep, if_neg new, OrderedTable.find?_insert, if_pos same]
        rw [List.find?_cons_of_pos (by simpa using same)]
        exact find?_keepAll_of_some stored tail
      · rw [List.find?_cons_of_neg (by simpa using same)]
        refine inductionHypothesis fun found => ?_
        rcases mem_keys_keepAll.1 (show name ∈ (helpers.keepAll [head]).keys from found)
          with old | new
        · exact unknown old
        · exact same (List.mem_singleton.1 new).symm

/-- Keeping only the first of each name, the first of any name is the same. -/
theorem find?_firstOfEachName (minted : List TypeDefinition) (name : String) :
    (firstOfEachName [] minted).find? (fun definition => definition.name = name) =
      minted.find? fun definition => definition.name = name := by
  have unknown : name ∉ OrderedTable.keys ({} : HelperTable) := List.not_mem_nil
  rw [← find?_keepAll_of_not_mem unknown, ← find?_keepAll_of_not_mem unknown,
    keepAll_firstOfEachName]

/-- What is found under a name: what was there before, or else the first definition
kept under it. -/
theorem find?_keepAll (helpers : HelperTable) (minted : List TypeDefinition) (name : String) :
    (helpers.keepAll minted).find? name =
      (helpers.find? name).or (minted.find? fun definition => definition.name = name) := by
  cases stored : helpers.find? name with
  | some definition => rw [find?_keepAll_of_some stored, Option.some_or]
  | none =>
      rw [find?_keepAll_of_not_mem (OrderedTable.not_mem_keys_of_find? stored), Option.none_or]

end HelperTable

/-! ## Computations -/

namespace Minting

variable {α β : Type}

theorem run_bind (computation : Minting α) (next : α → Minting β) (helpers : HelperTable) :
    ((computation >>= next).run).run helpers =
      match (computation.run).run helpers with
      | (.ok value, after) => ((next value).run).run after
      | (.error cycle, after) => (.error cycle, after) := by
  rw [ExceptT.run_bind, StateT.run_bind]
  cases (computation.run).run helpers with
  | mk result after =>
      cases result with
      | ok value => rfl
      | error cycle => rfl

theorem ofExcept_map (function : α → β) (result : Except ReferenceCycle α) :
    ofExcept (result.map function) = function <$> ofExcept result := by
  cases result <;> rfl

theorem ofExcept_bind (result : Except ReferenceCycle α) (next : α → Except ReferenceCycle β) :
    ofExcept (result >>= next) = ofExcept result >>= fun value => ofExcept (next value) := by
  cases result <;> rfl

/-- The computation gives `result` and keeps `minted` in turn, whatever helper
types there are already. -/
def Writes (computation : Minting α) (result : Except ReferenceCycle α)
    (minted : List TypeDefinition) : Prop :=
  ∀ helpers : HelperTable, (computation.run).run helpers = (result, helpers.keepAll minted)

theorem writes_pure (value : α) : Writes (pure value) (.ok value) [] :=
  fun _ => rfl

theorem writes_throw (cycle : ReferenceCycle) :
    Writes (throw cycle : Minting α) (.error cycle) [] :=
  fun _ => rfl

theorem writes_ofExcept (result : Except ReferenceCycle α) : Writes (ofExcept result) result [] :=
  fun _ => rfl

theorem writes_remember (definition : TypeDefinition) :
    Writes (remember definition) (.ok definition.name) [definition] := by
  intro helpers
  change (ExceptT.run (if !helpers.has definition.name then
    (do set (helpers.insert definition.name definition); return definition.name : Minting String)
    else return definition.name)).run helpers = (_, helpers.keep definition)
  unfold HelperTable.keep
  cases helpers.has definition.name <;> rfl

theorem Writes.bind {computation : Minting α} {next : α → Minting β} {value : α}
    {result : Except ReferenceCycle β} {minted more : List TypeDefinition}
    (first : Writes computation (.ok value) minted) (second : Writes (next value) result more) :
    Writes (computation >>= next) result (minted ++ more) := by
  intro helpers
  rw [HelperTable.keepAll_append, ← second, run_bind, first]

theorem Writes.map {computation : Minting α} {value : α} {minted : List TypeDefinition}
    (writes : Writes computation (.ok value) minted) (function : α → β) :
    Writes (function <$> computation) (.ok (function value)) minted := by
  rw [map_eq_pure_bind, ← List.append_nil minted]
  exact writes.bind (writes_pure (function value))

/-- After a cycle nothing further is kept. -/
theorem Writes.bind_error {computation : Minting α} {next : α → Minting β}
    {cycle : ReferenceCycle} {minted : List TypeDefinition}
    (failed : Writes computation (.error cycle) minted) :
    Writes (computation >>= next) (.error cycle) minted := by
  intro helpers
  rw [run_bind, failed]

/-- The helper types that a computation mints where there are none yet, each name
once. -/
def minted (computation : Minting α) : List TypeDefinition :=
  ((computation.run).run {}).2.values

/-! ## Values -/

/-- The computation gives `value` on some table. -/
def Yields (computation : Minting α) (value : α) : Prop :=
  ∃ helpers : HelperTable, ((computation.run).run helpers).1 = .ok value

theorem Writes.yields {computation : Minting α} {value : α} {minted : List TypeDefinition}
    (writes : Writes computation (.ok value) minted) : Yields computation value :=
  ⟨{}, by rw [writes]⟩

theorem eq_of_yields_pure {value other : α} (yields : Yields (pure value) other) :
    value = other := by
  obtain ⟨_, same⟩ := yields
  cases same
  rfl

theorem eq_of_yields_ofExcept {result : Except ReferenceCycle α} {value : α}
    (yields : Yields (ofExcept result) value) : result = .ok value := by
  obtain ⟨_, same⟩ := yields
  exact same

theorem Yields.of_bind {computation : Minting α} {next : α → Minting β} {value : β}
    (yields : Yields (computation >>= next) value) :
    ∃ first, Yields computation first ∧ Yields (next first) value := by
  obtain ⟨helpers, same⟩ := yields
  rw [run_bind] at same
  cases outcome : (computation.run).run helpers with
  | mk result after =>
      rw [outcome] at same
      cases result with
      | error cycle => cases same
      | ok first => exact ⟨first, ⟨helpers, by rw [outcome]⟩, after, same⟩

/-! ## Results -/

/-- The result of a computation where there are no helper types yet. -/
def result (computation : Minting α) : Except ReferenceCycle α :=
  ((computation.run).run {}).1

/-- The result does not depend on the helper types there are already. -/
def Steady (computation : Minting α) : Prop :=
  ∀ helpers : HelperTable, ((computation.run).run helpers).1 = computation.result

theorem Writes.steady {computation : Minting α} {result : Except ReferenceCycle α}
    {minted : List TypeDefinition} (writes : Writes computation result minted) :
    Steady computation := by
  intro helpers
  rw [Minting.result, writes, writes]

theorem Writes.minted_eq {computation : Minting α} {result : Except ReferenceCycle α}
    {kept : List TypeDefinition} (writes : Writes computation result kept) :
    computation.minted = firstOfEachName [] kept := by
  rw [Minting.minted, writes, HelperTable.values_keepAll]
  rfl

/-- A computation that writes anything writes its own result and what it mints. -/
theorem Writes.own {computation : Minting α} {result : Except ReferenceCycle α}
    {kept : List TypeDefinition} (writes : Writes computation result kept) :
    Writes computation computation.result computation.minted := by
  have same : computation.result = result := by
    rw [Minting.result, writes]
  intro helpers
  rw [same, writes.minted_eq, HelperTable.keepAll_firstOfEachName, writes]

theorem steady_pure (value : α) : Steady (pure value) :=
  fun _ => rfl

theorem result_bind {computation : Minting α} {next : α → Minting β}
    (steady : ∀ value, Steady (next value)) :
    (computation >>= next).result = computation.result >>= fun value => (next value).result := by
  unfold result
  rw [run_bind]
  cases (computation.run).run {} with
  | mk outcome after =>
      cases outcome with
      | error cycle => rfl
      | ok value => exact steady value after

theorem Steady.bind {computation : Minting α} {next : α → Minting β} (first : Steady computation)
    (second : ∀ value, Steady (next value)) : Steady (computation >>= next) := by
  intro helpers
  rw [result_bind second, ← first helpers, run_bind]
  cases (computation.run).run helpers with
  | mk outcome after =>
      cases outcome with
      | error cycle => rfl
      | ok value => exact second value after

theorem Steady.yields_iff {computation : Minting α} (steady : Steady computation) {value : α} :
    Yields computation value ↔ computation.result = .ok value := by
  constructor
  · rintro ⟨helpers, same⟩
    rwa [steady helpers] at same
  · exact fun same => ⟨{}, same⟩

end Minting

end SchemaCompiler
