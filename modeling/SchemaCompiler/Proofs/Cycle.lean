import SchemaCompiler.Proofs.Build

/-!
Contract: what a reported reference cycle says about an index.

Owns:
- `SchemaIndex.Leads`, the trails that references lead along from one schema,
  and the node that a trail ends at;
- `SchemaIndex.Diagnoses`, the reading of a reported chain: where it starts,
  that it closes, and that a reference stands behind each of its steps;
- `Descends.leads`, the invariant of the synthesis: a site lies in the inline
  tree of the node its trail ends at;
- that every build ends with a definition or with a diagnosis.

Does not own: the wording of a cycle.
-/

namespace SchemaCompiler

namespace SchemaIndex

variable {index : SchemaIndex} {name : String} {node source : SchemaNode} {trail : List String}
  {target : Reference}

/-! ## Trails -/

/-- The trails along which references lead from the schema `name`, which stands
for `node`, with the node each of them ends at. -/
inductive Leads (index : SchemaIndex) (name : String) (node : SchemaNode) :
    List String → SchemaNode → Prop where
  | start : Leads index name node [name] node
  | follow {trail : List String} {source next : SchemaNode} {target : Reference}
      (led : Leads index name node trail source)
      (occurs : (Schema.inline source).Occurs (.reference target))
      (found : index.lookup target.schemaName = some next) (fresh : target.schemaName ∉ trail) :
      Leads index name node (trail ++ [target.schemaName]) next

/-- Wherever a build gets to, it is in the inline tree of the node that its
trail ends at. -/
theorem Descends.leads {site : Site} (reached : index.Descends (.ofNamed name node) site) :
    ∃ source, index.Leads name node site.trail source ∧
      (Schema.inline source).Occurs site.schema := by
  induction reached with
  | here => exact ⟨node, .start, .whole⟩
  | part _ direct inductionHypothesis =>
      obtain ⟨source, led, occurs⟩ := inductionHypothesis
      exact ⟨source, led, .part occurs direct⟩
  | @target trail parent target next _ found fresh inductionHypothesis =>
      obtain ⟨source, led, occurs⟩ := inductionHypothesis
      exact ⟨next, .follow led occurs found fresh, .whole⟩
  | helper _ _ inductionHypothesis => exact inductionHypothesis

theorem Leads.head? (led : index.Leads name node trail source) : trail.head? = some name := by
  induction led with
  | start => rfl
  | follow _ _ _ _ inductionHypothesis =>
      rw [List.head?_append, inductionHypothesis]
      rfl

theorem Leads.length_pos (led : index.Leads name node trail source) : 0 < trail.length := by
  cases led with
  | start => simp
  | follow => simp

theorem Leads.nodup (led : index.Leads name node trail source) : trail.Nodup := by
  induction led with
  | start => simp
  | follow _ _ _ fresh inductionHypothesis =>
      rw [List.nodup_append]
      refine ⟨inductionHypothesis, by simp, ?_⟩
      intro left leftMember right rightMember same
      rw [List.mem_singleton] at rightMember
      exact fresh (rightMember ▸ same ▸ leftMember)

theorem Leads.declared (led : index.Leads name node trail source) :
    ∀ entry ∈ trail, entry ∈ name :: index.names := by
  induction led with
  | start => simp
  | follow _ _ found _ inductionHypothesis =>
      intro entry member
      rcases List.mem_append.1 member with before | last
      · exact inductionHypothesis entry before
      · rw [List.mem_singleton.1 last]
        exact List.mem_cons_of_mem _ (mem_names_of_lookup found)

/-- A trail has no more names than there are, the first one apart. -/
theorem Leads.length_le (led : index.Leads name node trail source) :
    trail.length ≤ index.size + 1 := by
  have bound := led.nodup.length_le_of_subset led.declared
  rwa [List.length_cons, names, OrderedTable.keys, Entries.keys, List.length_map] at bound

/-! ## Chains -/

/-- The node that an entry of a chain stands for: the given one for the first
entry, the declared one for the others. -/
def entryNode (index : SchemaIndex) (node : SchemaNode) : Nat → String → Option SchemaNode
  | 0, _ => some node
  | _ + 1, entry => index.lookup entry

/-- A reference to `target` occurs in the inline tree of the node that the
entry stands for. -/
def RefersTo (index : SchemaIndex) (node : SchemaNode) (position : Nat)
    (entry target : String) : Prop :=
  ∃ source, index.entryNode node position entry = some source ∧
    ∃ reference : Reference, (Schema.inline source).Occurs (.reference reference) ∧
      reference.schemaName = target

/-- The chain is a cycle met when `node` is built as `name`. -/
structure Diagnoses (index : SchemaIndex) (name : String) (node : SchemaNode)
    (chain : List String) : Prop where
  starts : chain.head? = some name
  distinct : chain.dropLast.Nodup
  closes : ∃ last ∈ chain.dropLast, chain.getLast? = some last
  follows : ∀ position entry next, chain[position]? = some entry →
    chain[position + 1]? = some next → index.RefersTo node position entry next
  bounded : chain.length ≤ index.size + 2

/-- The last entry of a trail stands for the node the trail ends at. -/
theorem Leads.entryNode_last (led : index.Leads name node trail source) {position : Nat}
    (last : position + 1 = trail.length) {entry : String} (stored : trail[position]? = some entry) :
    index.entryNode node position entry = some source := by
  cases led with
  | start =>
      obtain rfl : position = 0 := by simpa using last
      rfl
  | @follow trail _ _ target led _ found _ =>
      have atEnd : position = trail.length := by simpa using last
      subst atEnd
      rw [List.getElem?_append_right (Nat.le_refl _), Nat.sub_self] at stored
      cases stored
      obtain ⟨before, length⟩ := Nat.exists_eq_succ_of_ne_zero (Nat.ne_of_gt led.length_pos)
      rw [length]
      exact found

/-- A step to a further reference keeps a reference behind every step. -/
theorem Leads.refersTo (led : index.Leads name node trail source)
    (occurs : (Schema.inline source).Occurs (.reference target)) {position : Nat}
    {entry next : String} (atEntry : (trail ++ [target.schemaName])[position]? = some entry)
    (atNext : (trail ++ [target.schemaName])[position + 1]? = some next) :
    index.RefersTo node position entry next := by
  induction led generalizing target with
  | start =>
      cases position with
      | zero =>
          cases atNext
          exact ⟨node, rfl, target, occurs, rfl⟩
      | succ position => simp at atNext
  | @follow trail source further earlier led earlierOccurs found fresh inductionHypothesis =>
      -- Only the last step is new; the others are steps of the shorter trail.
      by_cases inside : position + 1 < (trail ++ [earlier.schemaName]).length
      · rw [List.getElem?_append_left inside] at atNext
        rw [List.getElem?_append_left (Nat.lt_of_succ_lt inside)] at atEntry
        exact inductionHypothesis earlierOccurs atEntry atNext
      · have bound := (List.getElem?_eq_some_iff.1 atNext).1
        have last : position + 1 = (trail ++ [earlier.schemaName]).length := by
          simp only [List.length_append, List.length_singleton] at bound inside ⊢
          omega
        rw [List.getElem?_append_left (by omega)] at atEntry
        rw [List.getElem?_append_right (by omega), last, Nat.sub_self] at atNext
        cases atNext
        exact ⟨further, (Leads.follow led earlierOccurs found fresh).entryNode_last last atEntry,
          target, occurs, rfl⟩

theorem Loops.diagnoses {cycle : ReferenceCycle}
    (loops : index.Loops (.ofNamed name node) cycle) : index.Diagnoses name node cycle.chain := by
  cases loops with
  | again reached visited =>
      obtain ⟨source, led, occurs⟩ := reached.leads
      constructor
      · rw [List.head?_append, led.head?]
        rfl
      · rw [List.dropLast_concat]
        exact led.nodup
      · rw [List.dropLast_concat, List.getLast?_concat]
        exact ⟨_, visited, rfl⟩
      · intro position entry next atEntry atNext
        exact led.refersTo occurs atEntry atNext
      · rw [List.length_append, List.length_singleton]
        exact Nat.succ_le_succ led.length_le

/-- Every build, of any node under any name and in any state of a run, ends
with a definition or with the diagnosis of a cycle. -/
theorem build_diagnoses (synthesizer : Synthesizer) (name : String) (node : SchemaNode) :
    (∃ made, (synthesizer.build name node).1 = .ok made) ∨
      ∃ cycle, (synthesizer.build name node).1 = .error cycle ∧
        synthesizer.index.Diagnoses name node cycle.chain := by
  cases outcome : synthesizer.index.buildAlone name node with
  | ok made =>
      rw [Synthesizer.build_of_alone_ok outcome]
      exact Or.inl ⟨_, rfl⟩
  | error cycle =>
      rw [Synthesizer.build_of_alone_error outcome]
      have loops := (exists_writes_of_buildAlone_error outcome).1
      exact Or.inr ⟨cycle, rfl, loops.diagnoses⟩

end SchemaIndex

end SchemaCompiler
