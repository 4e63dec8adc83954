import SchemaCompiler.Index

/-!
Contract: the trail of names being resolved.

Owns:
- `ReferenceCycle`, the chain of names that led back to one of its own, with
  its wording;
- `SchemaIndex.freshCount`, the names of an index that are not on a trail: every
  step onto the trail uses one up, which bounds all resolution.

Does not own: the resolution itself.
-/

namespace SchemaCompiler

/-- A chain of schema names whose last name occurs before. -/
structure ReferenceCycle where
  chain : List String
deriving DecidableEq, Repr

/-- The wording of a cycle: its names with arrows between them. -/
def ReferenceCycle.message (cycle : ReferenceCycle) : String :=
  "Reference Cycle: " ++ " -> ".intercalate cycle.chain

namespace SchemaIndex

/-- The number of declared names that are not on the trail. -/
def freshCount (index : SchemaIndex) (trail : List String) : Nat :=
  (index.names.filter fun name => decide (name ∉ trail)).length

/-- A name that has a node is declared. -/
theorem mem_names_of_lookup {index : SchemaIndex} {name : String} {node : SchemaNode}
    (found : index.lookup name = some node) : name ∈ index.names := by
  unfold lookup lookupWithin at found
  cases stored : index.schemas.find? name with
  | none => simp [stored] at found
  | some schema => exact Entries.mem_keys_of_find? stored

private theorem length_filter_lt {names : List String} {keep more : String → Bool}
    (weaker : ∀ name, keep name = true → more name = true) {name : String}
    (member : name ∈ names) (dropped : keep name = false) (kept : more name = true) :
    (names.filter keep).length < (names.filter more).length := by
  have subset : names.filter keep = (names.filter more).filter keep := by
    rw [List.filter_filter]
    refine List.filter_congr fun other _ => ?_
    cases outcome : keep other with
    | false => simp
    | true => simp [weaker other outcome]
  rw [subset]
  refine List.length_filter_lt_length_iff_exists.2 ⟨name, ?_, by simp [dropped]⟩
  exact List.mem_filter.2 ⟨member, kept⟩

/-- Stepping onto a declared name that is not on the trail uses it up. -/
theorem freshCount_append_lt {index : SchemaIndex} {trail : List String} {name : String}
    (declared : name ∈ index.names) (fresh : name ∉ trail) :
    index.freshCount (trail ++ [name]) < index.freshCount trail := by
  refine length_filter_lt ?_ declared (by simp) (by simpa using fresh)
  intro other kept
  simp only [List.mem_append, List.mem_singleton, not_or, decide_eq_true_eq] at kept
  simpa using kept.1

end SchemaIndex

end SchemaCompiler
