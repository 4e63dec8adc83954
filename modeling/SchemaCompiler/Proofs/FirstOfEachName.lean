import SchemaCompiler.Synthesis.Catalog

/-!
Contract: lists of definitions in which every name stands once.

Owns:
- the laws of `firstOfEachName`: what it does to an appended list, which names
  it keeps, and that leaving out definitions seen before changes nothing;
- `firstOfEachName_eq_eraseDupsBy`, which identifies it with the removal of
  later duplicates.

Does not own: how the definitions came about.
-/

namespace SchemaCompiler

theorem firstOfEachName_congr {left right : List String}
    (same : ∀ name, name ∈ left ↔ name ∈ right) (definitions : List TypeDefinition) :
    firstOfEachName left definitions = firstOfEachName right definitions := by
  induction definitions generalizing left right with
  | nil => rfl
  | cons head tail inductionHypothesis =>
      have both : ∀ name, name ∈ head.name :: left ↔ name ∈ head.name :: right := by
        intro name
        simp only [List.mem_cons, same name]
      simp only [firstOfEachName, same head.name]
      rw [inductionHypothesis same, inductionHypothesis both]

theorem firstOfEachName_append (seen : List String) (left right : List TypeDefinition) :
    firstOfEachName seen (left ++ right) =
      firstOfEachName seen left ++
        firstOfEachName (left.map TypeDefinition.name ++ seen) right := by
  induction left generalizing seen with
  | nil => rfl
  | cons head tail inductionHypothesis =>
      by_cases found : head.name ∈ seen
      · simp only [List.cons_append, firstOfEachName, found, if_true, List.map_cons]
        rw [inductionHypothesis]
        congr 1
        apply firstOfEachName_congr
        intro name
        simp only [List.mem_cons, List.mem_append]
        constructor
        · exact Or.inr
        · rintro (rfl | member)
          · exact Or.inr found
          · exact member
      · simp only [List.cons_append, firstOfEachName, found, if_false, List.map_cons]
        rw [inductionHypothesis]
        congr 2
        apply firstOfEachName_congr
        intro name
        simp only [List.mem_cons, List.mem_append]
        exact or_left_comm

/-- What is kept is the first definition of its name. -/
theorem mem_firstOfEachName_iff {seen : List String} {definitions : List TypeDefinition}
    {definition : TypeDefinition} :
    definition ∈ firstOfEachName seen definitions ↔
      definition.name ∉ seen ∧
        definitions.find? (fun other => other.name = definition.name) = some definition := by
  induction definitions generalizing seen with
  | nil => simp [firstOfEachName]
  | cons head tail inductionHypothesis =>
      by_cases same : head.name = definition.name
      · rw [List.find?_cons_of_pos (by simpa using same)]
        by_cases found : head.name ∈ seen
        · simp only [firstOfEachName, found, if_true, inductionHypothesis, ← same,
            not_true_eq_false, false_and]
        · simp only [firstOfEachName, found, if_false, List.mem_cons, inductionHypothesis,
            ← same, not_true_eq_false, false_and, or_false, not_false_eq_true, true_and,
            Option.some.injEq]
          exact eq_comm
      · rw [List.find?_cons_of_neg (by simpa using same)]
        by_cases found : head.name ∈ seen
        · simp only [firstOfEachName, found, if_true, inductionHypothesis]
        · have different : definition ≠ head := fun isHead => same (isHead ▸ rfl)
          simp only [firstOfEachName, found, if_false, List.mem_cons, inductionHypothesis,
            different, false_or, Ne.symm same]

theorem mem_of_mem_firstOfEachName {seen : List String} {definitions : List TypeDefinition}
    {definition : TypeDefinition} (member : definition ∈ firstOfEachName seen definitions) :
    definition ∈ definitions ∧ definition.name ∉ seen := by
  obtain ⟨fresh, first⟩ := mem_firstOfEachName_iff.1 member
  exact ⟨List.mem_of_find?_eq_some first, fresh⟩

/-- Keeping the first of each name loses no name. -/
theorem mem_names_firstOfEachName {seen : List String} {definitions : List TypeDefinition}
    {name : String} :
    name ∈ (firstOfEachName seen definitions).map TypeDefinition.name ↔
      name ∈ definitions.map TypeDefinition.name ∧ name ∉ seen := by
  induction definitions generalizing seen with
  | nil => simp [firstOfEachName]
  | cons head tail inductionHypothesis =>
      by_cases found : head.name ∈ seen
      · simp only [firstOfEachName, found, if_true, inductionHypothesis, List.map_cons,
          List.mem_cons]
        constructor
        · rintro ⟨member, fresh⟩
          exact ⟨Or.inr member, fresh⟩
        · rintro ⟨rfl | member, fresh⟩
          · exact absurd found fresh
          · exact ⟨member, fresh⟩
      · simp only [firstOfEachName, found, if_false, inductionHypothesis, List.map_cons,
          List.mem_cons, not_or]
        by_cases isHead : name = head.name
        · subst isHead
          simp [found]
        · simp [isHead]

theorem nodup_names_firstOfEachName (seen : List String) (definitions : List TypeDefinition) :
    ((firstOfEachName seen definitions).map TypeDefinition.name).Nodup := by
  induction definitions generalizing seen with
  | nil => exact List.nodup_nil
  | cons head tail inductionHypothesis =>
      by_cases found : head.name ∈ seen
      · simpa only [firstOfEachName, found, if_true] using inductionHypothesis seen
      · simp only [firstOfEachName, found, if_false, List.map_cons, List.nodup_cons]
        refine ⟨fun member => ?_, inductionHypothesis _⟩
        exact (mem_names_firstOfEachName.1 member).2 (by simp)

/-- Leaving out definitions whose names were seen changes nothing later on. -/
theorem firstOfEachName_firstOfEachName {known seen : List String}
    (subset : ∀ name ∈ known, name ∈ seen) (definitions : List TypeDefinition) :
    firstOfEachName seen (firstOfEachName known definitions) =
      firstOfEachName seen definitions := by
  induction definitions generalizing known seen with
  | nil => rfl
  | cons head tail inductionHypothesis =>
      by_cases found : head.name ∈ known
      · simp only [firstOfEachName, found, if_true, subset _ found]
        exact inductionHypothesis subset
      · have both : ∀ name ∈ head.name :: known, name ∈ head.name :: seen := by
          intro name member
          rcases List.mem_cons.1 member with isHead | inKnown
          · exact isHead ▸ List.mem_cons_self
          · exact List.mem_cons_of_mem _ (subset name inKnown)
        by_cases emitted : head.name ∈ seen
        · simp only [firstOfEachName, found, emitted, if_true, if_false]
          refine inductionHypothesis fun name member => ?_
          rcases List.mem_cons.1 (both name member) with isHead | inSeen
          · exact isHead ▸ emitted
          · exact inSeen
        · simp only [firstOfEachName, found, emitted, if_false]
          rw [inductionHypothesis both]

private theorem firstOfEachName_eq_eraseDupsBy_filter (seen : List String)
    (definitions : List TypeDefinition) :
    firstOfEachName seen definitions =
      (definitions.filter fun definition => decide (definition.name ∉ seen)).eraseDupsBy
        fun left right => left.name == right.name := by
  induction definitions generalizing seen with
  | nil => rfl
  | cons head tail inductionHypothesis =>
      by_cases found : head.name ∈ seen
      · simp only [firstOfEachName, found, if_true, inductionHypothesis]
        rw [List.filter_cons_of_neg (by simpa using found)]
      · simp only [firstOfEachName, found, if_false, inductionHypothesis]
        rw [List.filter_cons_of_pos (by simpa using found), List.eraseDupsBy_cons,
          List.filter_filter]
        congr 2
        refine List.filter_congr fun definition _ => ?_
        simp [not_or]

/-- Keeping the first of each name is removing every later duplicate. -/
theorem firstOfEachName_eq_eraseDupsBy (definitions : List TypeDefinition) :
    firstOfEachName [] definitions =
      definitions.eraseDupsBy fun left right => left.name == right.name := by
  rw [firstOfEachName_eq_eraseDupsBy_filter, List.filter_eq_self.2 (by simp)]

end SchemaCompiler
