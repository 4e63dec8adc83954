import SchemaCompiler.Synthesis.Trail
import Mathlib.Data.List.Nodup

/-!
Contract: what a name stands for when its entry is only a reference.

Owns:
- `SchemaIndex.chain`, the names that one comes to from a name by following
  entries that are references, and `SchemaIndex.EndsAt`, where such a chain stops;
- `EndsAt.not_loops`: a chain that stops comes to none of its names twice;
- `exists_endsAt_or_loops`: every chain stops within as many steps as there are
  names, or it loops;
- `SchemaIndex.lookupPast`, the walk along a chain that remembers which entries it
  has passed, and `lookupPast_eq_some_iff`, by which it gives the node that the
  chain comes to;
- `lookup_follows_chain`: looking a name up gives the node at the end of its
  chain, and nothing exactly when the chain leaves the index or loops.

Does not own: cycles of schemas with nodes (`SchemaCompiler.Proofs.Cycle`).
-/

namespace SchemaCompiler

namespace SchemaIndex

/-- The name that the entry of `name` refers to, when the entry is a reference. -/
def referredBy? (index : SchemaIndex) (name : String) : Option String :=
  match index.schemas.find? name with
  | some (.reference target) => some target.schemaName
  | _ => none

/-- The name that the chain from `name` has come to after some steps, unless it
has stopped before. -/
def chain (index : SchemaIndex) : String → Nat → Option String
  | name, 0 => some name
  | name, steps + 1 => (index.referredBy? name).bind fun next => index.chain next steps

/-- The chain from `name` stops at `last`: its entry is missing or is a node. -/
structure EndsAt (index : SchemaIndex) (name : String) (steps : Nat) (last : String) : Prop where
  reached : index.chain name steps = some last
  stops : index.referredBy? last = none

/-- The chain from `name` comes to one of its names a second time. -/
def ChainLoops (index : SchemaIndex) (name : String) : Prop :=
  ∃ early late again, early < late ∧ index.chain name early = some again ∧
    index.chain name late = some again

variable {index : SchemaIndex} {name last : String} {target : Reference} {node : SchemaNode}
  {steps : Nat}

/-! ## Chains -/

theorem referredBy?_reference (entry : index.schemas.find? name = some (.reference target)) :
    index.referredBy? name = some target.schemaName := by
  rw [referredBy?, entry]

theorem referredBy?_inline (entry : index.schemas.find? name = some (.inline node)) :
    index.referredBy? name = none := by
  rw [referredBy?, entry]

theorem referredBy?_missing (entry : index.schemas.find? name = none) :
    index.referredBy? name = none := by
  rw [referredBy?, entry]

/-- Only declared names refer to others. -/
theorem mem_names_of_referredBy? {next : String} (refers : index.referredBy? name = some next) :
    name ∈ index.names := by
  cases stored : index.schemas.find? name with
  | none => simp [referredBy?, stored] at refers
  | some schema => exact Entries.mem_keys_of_find? stored

theorem chain_zero (index : SchemaIndex) (name : String) : index.chain name 0 = some name := rfl

theorem chain_succ_of_reference (entry : index.schemas.find? name = some (.reference target))
    (steps : Nat) : index.chain name (steps + 1) = index.chain target.schemaName steps := by
  rw [chain, referredBy?_reference entry, Option.bind_some]

/-- A chain is where it started, or its first entry is a reference. -/
theorem chain_cases (reached : index.chain name steps = some last) :
    (steps = 0 ∧ name = last) ∨ ∃ target rest, steps = rest + 1 ∧
      index.schemas.find? name = some (.reference target) ∧
        index.chain target.schemaName rest = some last := by
  cases steps with
  | zero => exact Or.inl ⟨rfl, Option.some.inj reached⟩
  | succ rest =>
      cases entry : index.schemas.find? name with
      | none =>
          rw [chain, referredBy?_missing entry] at reached
          cases reached
      | some schema =>
          cases schema with
          | inline node =>
              rw [chain, referredBy?_inline entry] at reached
              cases reached
          | reference target =>
              rw [chain_succ_of_reference entry] at reached
              exact Or.inr ⟨target, rest, rfl, rfl, reached⟩

/-- A chain goes on from any of its names as the chain from that name. -/
theorem chain_add (index : SchemaIndex) (name : String) (first second : Nat) :
    index.chain name (first + second) =
      (index.chain name first).bind fun middle => index.chain middle second := by
  induction first generalizing name with
  | zero => rw [Nat.zero_add, chain_zero, Option.bind_some]
  | succ first inductionHypothesis =>
      rw [Nat.succ_add, chain, chain, Option.bind_assoc]
      simp only [inductionHypothesis]

theorem chain_succ (index : SchemaIndex) (name : String) (steps : Nat) :
    index.chain name (steps + 1) = (index.chain name steps).bind index.referredBy? := by
  have single : ∀ middle, index.chain middle 1 = index.referredBy? middle := by
    intro middle
    rw [chain]
    exact Option.bind_fun_some _
  rw [chain_add]
  simp only [single]

/-- A chain that has come somewhere has come somewhere at each step before. -/
theorem exists_chain_of_le {early : Nat} (reached : index.chain name steps = some last)
    (before : early ≤ steps) : ∃ middle, index.chain name early = some middle := by
  obtain ⟨rest, rfl⟩ := Nat.exists_eq_add_of_le before
  rw [chain_add] at reached
  obtain ⟨middle, atMiddle, -⟩ := Option.bind_eq_some_iff.1 reached
  exact ⟨middle, atMiddle⟩

/-- Behind its end there is nothing on a chain. -/
theorem EndsAt.chain_of_lt (ends : index.EndsAt name steps last) {late : Nat}
    (behind : steps < late) : index.chain name late = none := by
  obtain ⟨rest, rfl⟩ := Nat.exists_eq_add_of_le behind
  rw [chain_add, chain_succ, ends.reached, Option.bind_some, ends.stops, Option.bind_none]

theorem EndsAt.le_of_chain (ends : index.EndsAt name steps last) {other : Nat} {middle : String}
    (reached : index.chain name other = some middle) : other ≤ steps := by
  by_contra behind
  rw [ends.chain_of_lt (Nat.lt_of_not_le behind)] at reached
  cases reached

/-- A chain has one end. -/
theorem EndsAt.unique (ends : index.EndsAt name steps last) {other : Nat} {stop : String}
    (also : index.EndsAt name other stop) : steps = other ∧ last = stop := by
  have same : steps = other :=
    Nat.le_antisymm (also.le_of_chain ends.reached) (ends.le_of_chain also.reached)
  subst same
  exact ⟨rfl, Option.some.inj (ends.reached.symm.trans also.reached)⟩

/-- On a chain with an end every name stands once: from the second time on, the
chain would have to end a second time. -/
theorem EndsAt.not_loops (ends : index.EndsAt name steps last) : ¬ index.ChainLoops name := by
  rintro ⟨early, late, again, before, atEarly, atLate⟩
  obtain ⟨rest, rfl⟩ := Nat.exists_eq_add_of_le (ends.le_of_chain atEarly)
  have further : index.chain name (late + rest) = index.chain name (early + rest) := by
    rw [chain_add, chain_add, atLate, atEarly]
  rw [ends.reached, ends.chain_of_lt (by omega)] at further
  cases further

/-- The names before a step are declared. When they are distinct, there are no
more of them than names in the index. -/
theorem steps_le_size (reached : index.chain name steps = some last)
    (straight : ¬ index.ChainLoops name) : steps ≤ index.size := by
  have passed : ∀ early < steps, ∃ middle ∈ index.names, index.chain name early = some middle := by
    intro early before
    obtain ⟨middle, atMiddle⟩ := exists_chain_of_le reached (Nat.le_of_lt before)
    obtain ⟨next, atNext⟩ := exists_chain_of_le reached before
    rw [Nat.succ_eq_add_one, chain_succ, atMiddle, Option.bind_some] at atNext
    exact ⟨middle, mem_names_of_referredBy? atNext, atMiddle⟩
  let names := (List.range steps).map fun early => (index.chain name early).getD ""
  have distinct : names.Nodup := by
    refine List.Nodup.map_on (fun early listed late listedLate same => ?_) List.nodup_range
    obtain ⟨middle, -, atEarly⟩ := passed early (List.mem_range.1 listed)
    obtain ⟨other, -, atLate⟩ := passed late (List.mem_range.1 listedLate)
    simp only [atEarly, atLate, Option.getD_some] at same
    subst same
    by_contra different
    rcases Nat.lt_or_gt_of_ne different with before | after
    · exact straight ⟨early, late, middle, before, atEarly, atLate⟩
    · exact straight ⟨late, early, middle, after, atLate, atEarly⟩
  have declared : names ⊆ index.names := by
    intro listed member
    obtain ⟨early, before, rfl⟩ := List.mem_map.1 member
    obtain ⟨middle, isDeclared, atMiddle⟩ := passed early (List.mem_range.1 before)
    rwa [atMiddle]
  have bound := distinct.length_le_of_subset declared
  rwa [List.length_map, List.length_range, SchemaIndex.names, OrderedTable.keys, Entries.keys,
    List.length_map] at bound

/-- Every chain comes to its end within as many steps as there are names, or it
loops. -/
theorem exists_endsAt_or_loops (index : SchemaIndex) (name : String) :
    (∃ steps ≤ index.size, ∃ last, index.EndsAt name steps last) ∨ index.ChainLoops name := by
  by_cases loops : index.ChainLoops name
  · exact Or.inr loops
  left
  by_contra endless
  -- Then the chain goes on for more steps than there are names.
  have goesOn : ∀ steps ≤ index.size + 1, ∃ last, index.chain name steps = some last := by
    intro steps
    induction steps with
    | zero => exact fun _ => ⟨name, index.chain_zero name⟩
    | succ steps inductionHypothesis =>
        intro bound
        obtain ⟨last, reached⟩ := inductionHypothesis (Nat.le_of_succ_le bound)
        rw [chain_succ, reached, Option.bind_some, ← Option.ne_none_iff_exists']
        intro stops
        exact endless ⟨steps, Nat.le_of_succ_le_succ bound, last, reached, stops⟩
  obtain ⟨last, reached⟩ := goesOn _ (Nat.le_refl _)
  exact Nat.not_succ_le_self _ (steps_le_size reached loops)

/-! ## Looking up -/

/-- A bounded walk gives the node that the chain comes to within the bound. -/
theorem lookupWithin_eq_some_iff {bound : Nat} :
    index.lookupWithin bound name = some node ↔
      ∃ steps < bound, ∃ last, index.chain name steps = some last ∧
        index.schemas.find? last = some (.inline node) := by
  induction bound generalizing name with
  | zero => simp [lookupWithin]
  | succ bound inductionHypothesis =>
      rw [lookupWithin]
      constructor
      · intro found
        split at found
        · cases found
        · rename_i own entry
          cases found
          exact ⟨0, Nat.succ_pos _, name, index.chain_zero name, entry⟩
        · rename_i target entry
          obtain ⟨steps, within, last, reached, atLast⟩ := inductionHypothesis.1 found
          refine ⟨steps + 1, Nat.succ_lt_succ within, last, ?_, atLast⟩
          rwa [chain_succ_of_reference entry]
      · rintro ⟨steps, within, last, reached, atLast⟩
        rcases chain_cases reached with ⟨-, rfl⟩ | ⟨target, rest, rfl, entry, further⟩
        · rw [atLast]
        · rw [entry]
          exact inductionHypothesis.2 ⟨rest, Nat.lt_of_succ_lt_succ within, last, further, atLast⟩

/-- Looking a name up gives the node at the end of its chain. -/
theorem lookup_eq_some_iff : index.lookup name = some node ↔
    ∃ steps last, index.chain name steps = some last ∧
      index.schemas.find? last = some (.inline node) := by
  rw [lookup, lookupWithin_eq_some_iff]
  constructor
  · rintro ⟨steps, -, last, atEnd⟩
    exact ⟨steps, last, atEnd⟩
  · rintro ⟨steps, last, reached, entry⟩
    have ends : index.EndsAt name steps last := ⟨reached, referredBy?_inline entry⟩
    have bound := steps_le_size reached ends.not_loops
    exact ⟨steps, Nat.lt_succ_of_le bound, last, reached, entry⟩

theorem lookup_eq_none_iff : index.lookup name = none ↔
    (∃ steps last, index.chain name steps = some last ∧ index.schemas.find? last = none) ∨
      index.ChainLoops name := by
  constructor
  · intro missing
    refine (exists_endsAt_or_loops index name).imp_left ?_
    rintro ⟨steps, -, last, reached, stops⟩
    refine ⟨steps, last, reached, ?_⟩
    cases entry : index.schemas.find? last with
    | none => rfl
    | some schema =>
        cases schema with
        | reference target => simp [referredBy?_reference entry] at stops
        | inline node =>
            rw [lookup_eq_some_iff.2 ⟨steps, last, reached, entry⟩] at missing
            cases missing
  · intro noNode
    rw [Option.eq_none_iff_forall_ne_some]
    intro node found
    obtain ⟨steps, last, reached, entry⟩ := lookup_eq_some_iff.1 found
    have ends : index.EndsAt name steps last := ⟨reached, referredBy?_inline entry⟩
    rcases noNode with ⟨other, outside, comesTo, undeclared⟩ | loops
    · obtain ⟨-, rfl⟩ := ends.unique ⟨comesTo, referredBy?_missing undeclared⟩
      rw [entry] at undeclared
      cases undeclared
    · exact ends.not_loops loops

/-- A name whose entry is a reference stands for what the reference resolves to. -/
theorem lookup_of_reference (entry : index.schemas.find? name = some (.reference target)) :
    index.lookup name = index.resolve target := by
  refine Option.ext fun node => ?_
  rw [resolve, lookup_eq_some_iff, lookup_eq_some_iff]
  constructor
  · rintro ⟨steps, last, reached, atLast⟩
    rcases chain_cases reached with ⟨-, rfl⟩ | ⟨other, rest, -, same, further⟩
    · rw [entry] at atLast
      cases atLast
    · cases entry.symm.trans same
      exact ⟨rest, last, further, atLast⟩
  · rintro ⟨steps, last, reached, atLast⟩
    exact ⟨steps + 1, last, (chain_succ_of_reference entry steps).trans reached, atLast⟩

/-! ## A walk that remembers -/

/-- The node that a walk from `name` finds. The walk remembers the references it
has followed, and at one that it has followed before it gives up. -/
def lookupPast (index : SchemaIndex) (passed : List String) (name : String) :
    Option SchemaNode :=
  match entry : index.schemas.find? name with
  | none => none
  | some (.inline node) => some node
  | some (.reference target) =>
      if fresh : name ∉ passed then
        have := freshCount_append_lt (Entries.mem_keys_of_find? entry) fresh
        lookupPast index (passed ++ [name]) target.schemaName
      else none
termination_by index.freshCount passed

/-- The chain from `name` comes to `node`, and by no reference passed before. -/
def ComesTo (index : SchemaIndex) (passed : List String) (name : String) (node : SchemaNode) :
    Prop :=
  ∃ steps last, index.chain name steps = some last ∧
    index.schemas.find? last = some (.inline node) ∧
      ∀ early < steps, ∀ middle, index.chain name early = some middle → middle ∉ passed

variable {passed : List String}

theorem not_comesTo_of_missing (entry : index.schemas.find? name = none) :
    ¬ index.ComesTo passed name node := by
  rintro ⟨steps, last, reached, atLast, -⟩
  rcases chain_cases reached with ⟨-, rfl⟩ | ⟨target, rest, -, refers, -⟩
  · rw [entry] at atLast
    cases atLast
  · rw [entry] at refers
    cases refers

theorem comesTo_inline_iff {own : SchemaNode}
    (entry : index.schemas.find? name = some (.inline own)) :
    index.ComesTo passed name node ↔ own = node := by
  constructor
  · rintro ⟨steps, last, reached, atLast, -⟩
    rcases chain_cases reached with ⟨-, rfl⟩ | ⟨target, rest, -, refers, -⟩
    · rw [entry] at atLast
      cases atLast
      rfl
    · rw [entry] at refers
      cases refers
  · rintro rfl
    exact ⟨0, name, index.chain_zero name, entry, fun early before => by cases before⟩

/-- Behind a reference the chain goes on from its target, and it does not come back
to the reference. -/
theorem comesTo_reference_iff (entry : index.schemas.find? name = some (.reference target)) :
    index.ComesTo passed name node ↔
      name ∉ passed ∧ index.ComesTo (passed ++ [name]) target.schemaName node := by
  constructor
  · rintro ⟨steps, last, reached, atLast, unpassed⟩
    have ends : index.EndsAt name steps last := ⟨reached, referredBy?_inline atLast⟩
    rcases chain_cases reached with ⟨-, rfl⟩ | ⟨other, rest, rfl, same, further⟩
    · rw [entry] at atLast
      cases atLast
    cases entry.symm.trans same
    refine ⟨unpassed 0 (Nat.succ_pos _) name (index.chain_zero name), rest, last, further, atLast,
      fun early before middle atMiddle => ?_⟩
    rw [← chain_succ_of_reference entry] at atMiddle
    rw [List.mem_append, List.mem_singleton, not_or]
    refine ⟨unpassed _ (Nat.succ_lt_succ before) middle atMiddle, ?_⟩
    -- The name itself stands at the start of the chain, and nowhere else.
    rintro rfl
    exact ends.not_loops ⟨0, early + 1, middle, Nat.succ_pos _, index.chain_zero middle, atMiddle⟩
  · rintro ⟨fresh, steps, last, reached, atLast, unpassed⟩
    refine ⟨steps + 1, last, ?_, atLast, ?_⟩
    · rwa [chain_succ_of_reference entry]
    · intro early before middle atMiddle
      cases early with
      | zero =>
          cases (index.chain_zero name).symm.trans atMiddle
          exact fresh
      | succ early =>
          rw [chain_succ_of_reference entry] at atMiddle
          have unlisted := unpassed early (Nat.lt_of_succ_lt_succ before) middle atMiddle
          exact fun listed => unlisted (List.mem_append_left _ listed)

/-- The walk gives the node that the chain comes to by fresh references alone. -/
theorem lookupPast_eq_some_iff :
    index.lookupPast passed name = some node ↔ index.ComesTo passed name node := by
  fun_induction lookupPast index passed name with
  | case1 passed name entry => exact iff_of_false (by simp) (not_comesTo_of_missing entry)
  | case2 passed name own entry => rw [comesTo_inline_iff entry, Option.some.injEq]
  | case3 passed name target entry fresh smaller inductionHypothesis =>
      rw [inductionHypothesis, comesTo_reference_iff entry]
      exact (and_iff_right fresh).symm
  | case4 passed name target entry visited =>
      refine iff_of_false (by simp) fun comes => ?_
      exact visited ((comesTo_reference_iff entry).1 comes).1

/-- Remembering what was passed cuts no chain off that comes to a node. -/
theorem lookupPast_nil (index : SchemaIndex) (name : String) :
    index.lookupPast [] name = index.lookup name := by
  refine Option.ext fun node => ?_
  rw [lookupPast_eq_some_iff, ComesTo, lookup_eq_some_iff]
  simp

/-- The walk along the references of an index ends: it gives the node at the end
of the chain from a name, and none exactly when the chain comes to a name that is
not declared or comes to one of its names again. So a name whose entry is a
reference stands for what the reference resolves to. -/
theorem lookup_follows_chain (index : SchemaIndex) (name : String) :
    index.lookup name = index.lookupPast [] name ∧
      (∀ node, index.lookup name = some node ↔
        ∃ steps last, index.chain name steps = some last ∧
          index.schemas.find? last = some (.inline node)) ∧
      (index.lookup name = none ↔
        (∃ steps last, index.chain name steps = some last ∧ index.contains last = false) ∨
          index.ChainLoops name) ∧
      ∀ target, index.schemas.find? name = some (.reference target) →
        index.lookup name = index.resolve target := by
  refine ⟨(index.lookupPast_nil name).symm, fun _ => lookup_eq_some_iff, ?_, ?_⟩
  · have undeclared : ∀ last, index.contains last = false ↔ index.schemas.find? last = none := by
      intro last
      rw [contains, OrderedTable.has, ← Entries.isSome_find?, Option.isSome_eq_false_iff,
        Option.isNone_iff_eq_none]
      rfl
    simp only [undeclared]
    exact lookup_eq_none_iff
  · exact fun target entry => lookup_of_reference entry

/-! ## A tail that leads into a loop -/

def reefReference : Reference := ⟨"#/components/schemas/Reef"⟩

def shoalReference : Reference := ⟨"#/components/schemas/Shoal"⟩

/-- `Buoy` leads into the loop of `Reef` and `Shoal`. -/
def reefIndex : SchemaIndex where
  schemas := ⟨[("Buoy", .reference reefReference), ("Reef", .reference shoalReference),
    ("Shoal", .reference reefReference)], by decide⟩

/-- The chain from `Buoy` never comes back to `Buoy`, and still it loops. -/
theorem lookup_follows_chain_buoy :
    reefIndex.schemas.find? "Buoy" = some (.reference reefReference) ∧
      reefIndex.ChainLoops "Buoy" ∧ reefIndex.lookup "Buoy" = none ∧
      reefIndex.resolve reefReference = none := by
  obtain ⟨-, -, nothing, resolves⟩ := lookup_follows_chain reefIndex "Buoy"
  have entry : reefIndex.schemas.find? "Buoy" = some (.reference reefReference) := rfl
  have loops : reefIndex.ChainLoops "Buoy" :=
    ⟨1, 3, "Reef", by decide, by decide +kernel, by decide +kernel⟩
  have missing := nothing.2 (Or.inr loops)
  exact ⟨entry, loops, missing, (resolves reefReference entry).symm.trans missing⟩

end SchemaIndex

end SchemaCompiler
