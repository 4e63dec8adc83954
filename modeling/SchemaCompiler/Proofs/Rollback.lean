import SchemaCompiler.Proofs.Build

/-!
Contract: what a build that fails leaves behind.

Owns:
- `Synthesizer.runAll`, a run of requests with all its answers;
- `Synthesizer.Idle`, the invariant of such runs: the index stays, and between
  two requests nothing is left on the trail;
- `Synthesizer.build_rolls_back`: after any run of requests, a build that fails
  gives the very state before it, and what is answered later is what would have
  been answered without it.

The helper types minted on the way to a cycle stand behind those that were there
before, so cutting the table back to its former size removes them and nothing
else.

Does not own: builds that succeed (`SchemaCompiler.Proofs.Locality`).
-/

namespace SchemaCompiler

namespace Synthesizer

/-! ## Runs of requests -/

/-- Answers requests in turn, each in the state that the one before it left. -/
def runAll (synthesizer : Synthesizer) :
    List Request → List (Except ReferenceCycle Answer) × Synthesizer
  | [] => ([], synthesizer)
  | request :: rest =>
      let (answer, after) := synthesizer.run request
      let (answers, last) := after.runAll rest
      (answer :: answers, last)

theorem runAll_cons (synthesizer : Synthesizer) (request : Request) (rest : List Request) :
    synthesizer.runAll (request :: rest) =
      ((synthesizer.run request).1 :: ((synthesizer.run request).2.runAll rest).1,
        ((synthesizer.run request).2.runAll rest).2) :=
  rfl

theorem length_runAll (synthesizer : Synthesizer) (requests : List Request) :
    (synthesizer.runAll requests).1.length = requests.length := by
  induction requests generalizing synthesizer with
  | nil => rfl
  | cons request rest inductionHypothesis =>
      rw [runAll_cons, List.length_cons, List.length_cons, inductionHypothesis]

/-- The later requests are answered in the state that the earlier ones leave. -/
theorem runAll_append (synthesizer : Synthesizer) (earlier later : List Request) :
    synthesizer.runAll (earlier ++ later) =
      ((synthesizer.runAll earlier).1 ++ ((synthesizer.runAll earlier).2.runAll later).1,
        ((synthesizer.runAll earlier).2.runAll later).2) := by
  induction earlier generalizing synthesizer with
  | nil => rfl
  | cons request rest inductionHypothesis =>
      rw [List.cons_append, runAll_cons, inductionHypothesis, runAll_cons]
      rfl

/-! ## Between requests -/

/-- The synthesizer is between two requests of a run over `index`. -/
structure Idle (index : SchemaIndex) (synthesizer : Synthesizer) : Prop where
  index_eq : synthesizer.index = index
  trail_eq : synthesizer.trail = []

variable {index : SchemaIndex} {synthesizer : Synthesizer}

theorem idle_start (index : SchemaIndex) : (start index).Idle index :=
  ⟨rfl, rfl⟩

theorem Idle.minting {α : Type} (idle : synthesizer.Idle index) (computation : Minting α) :
    (synthesizer.minting computation).2.Idle index :=
  ⟨idle.index_eq, idle.trail_eq⟩

/-- A build leaves nothing on the trail, whether it fails or not. -/
theorem Idle.build (idle : synthesizer.Idle index) (name : String) (node : SchemaNode) :
    (synthesizer.build name node).2.Idle index := by
  cases outcome : synthesizer.index.buildAlone name node with
  | ok made =>
      rw [build_of_alone_ok outcome]
      exact ⟨idle.index_eq, rfl⟩
  | error cycle =>
      rw [build_of_alone_error outcome]
      exact ⟨idle.index_eq, rfl⟩

theorem Idle.run (idle : synthesizer.Idle index) (request : Request) :
    (synthesizer.run request).2.Idle index := by
  cases request with
  | build name node => exact idle.build name node
  | property parent property schema => exact idle.minting _
  | record name node => exact idle.minting _
  | typeOf | mapAlias | union => exact idle

theorem Idle.runAll (idle : synthesizer.Idle index) (requests : List Request) :
    (synthesizer.runAll requests).2.Idle index := by
  induction requests generalizing synthesizer with
  | nil => exact idle
  | cons request rest inductionHypothesis => exact inductionHypothesis (idle.run request)

/-! ## Failed builds -/

/-- Between two requests a build that fails changes nothing at all. -/
theorem Idle.build_eq_of_error (idle : synthesizer.Idle index) {name : String}
    {node : SchemaNode} {cycle : ReferenceCycle}
    (failed : (synthesizer.build name node).1 = .error cycle) :
    synthesizer.build name node = (.error cycle, synthesizer) := by
  cases outcome : synthesizer.index.buildAlone name node with
  | ok made =>
      rw [build_of_alone_ok outcome] at failed
      cases failed
  | error other =>
      rw [build_of_alone_error outcome] at failed ⊢
      cases failed
      have untouched : { synthesizer with trail := [] } = synthesizer := by
        rw [← idle.trail_eq]
      rw [untouched]

/-- After any run of requests, a build that fails leaves the very state before
it. Its own answer apart, every run that goes on after it is answered as the run
without it, and ends in the same state. -/
theorem build_rolls_back (index : SchemaIndex) (earlier : List Request) {name : String}
    {node : SchemaNode} {cycle : ReferenceCycle}
    (failed : (((start index).runAll earlier).2.build name node).1 = .error cycle) :
    (((start index).runAll earlier).2.build name node).2 = ((start index).runAll earlier).2 ∧
      ∀ later : List Request,
        let without := (start index).runAll (earlier ++ later)
        let through := (start index).runAll (earlier ++ .build name node :: later)
        through.1[earlier.length]? = some (.error cycle) ∧
          through.1.eraseIdx earlier.length = without.1 ∧ through.2 = without.2 := by
  have idle := (idle_start index).runAll earlier
  generalize reached : ((start index).runAll earlier).2 = before at failed idle ⊢
  have unchanged : before.build name node = (.error cycle, before) := idle.build_eq_of_error failed
  have answered : before.run (.build name node) = (.error cycle, before) := by
    rw [run, unchanged]
    rfl
  refine ⟨by rw [unchanged], fun later => ?_⟩
  have place := length_runAll (start index) earlier
  simp only [runAll_append, runAll_cons, reached, answered, ← place]
  refine ⟨?_, ?_, trivial⟩
  · rw [List.getElem?_append_right (Nat.le_refl _), Nat.sub_self, List.getElem?_cons_zero]
  · rw [List.eraseIdx_append_of_length_le (Nat.le_refl _), Nat.sub_self, List.eraseIdx_cons_zero]

/-! ## An instance -/

def gearNode : SchemaNode :=
  { enumValues := [.string "low"], enumNames := ["Low"] }

/-- A schema with a helper type of its own that is its own parent. -/
def knotNode : SchemaNode :=
  { properties := [("gear", .inline gearNode)]
    allOf := [.reference ⟨"#/components/schemas/Knot"⟩] }

def knotIndex : SchemaIndex where
  schemas := ⟨[("Knot", .inline knotNode)], by decide⟩

/-- The helper type is minted before the cycle is met. -/
theorem namedDefinition_knotNode :
    ((namedDefinition knotIndex ["Knot"] "Knot" knotNode).run).run {} =
      (.error ⟨["Knot", "Knot"]⟩, HelperTable.keepAll {}
        [.enumeration "KnotGear" .string [⟨"Low", "KnotGearLow", "\"low\""⟩]]) := by
  have name : Reference.schemaName ⟨"#/components/schemas/Knot"⟩ = "Knot" := by
    decide +kernel
  have found : knotIndex.lookup (Reference.schemaName ⟨"#/components/schemas/Knot"⟩) =
      some knotNode := by
    rw [name]
    rfl
  have looped : Reference.schemaName ⟨"#/components/schemas/Knot"⟩ ∈ ["Knot"] := by
    rw [name]
    decide
  have parents : ∀ required table, knotIndex.parents ["Knot"] "Knot" required
      [.reference ⟨"#/components/schemas/Knot"⟩] table = throw ⟨["Knot", "Knot"]⟩ := by
    intro required table
    rw [SchemaIndex.parents_of_looped "Knot" required [] table found looped, name]
    rfl
  simp only [namedDefinition, SchemaIndex.recordDefinition, knotNode, SchemaIndex.contribution,
    SchemaIndex.properties, SchemaIndex.propertyType, parents]
  rfl

/-- A schema that fails, after the gear of a team was typed: the helper type of
the team is there before and after, and that of the knot is gone. -/
theorem build_rolls_back_knot :
    let earlier : List Request := [.property "Team" "gear" (.inline gearNode)]
    let before := ((start knotIndex).runAll earlier).2
    before.helpers.keys = ["TeamGear"] ∧
      (before.build "Knot" knotNode).1 = .error ⟨["Knot", "Knot"]⟩ ∧
      (before.build "Knot" knotNode).2 = before := by
  have alone : knotIndex.buildAlone "Knot" knotNode = .error ⟨["Knot", "Knot"]⟩ := by
    simp only [SchemaIndex.buildAlone, build, start, namedDefinition_knotNode]
  have typed : ((start knotIndex).runAll [.property "Team" "gear" (.inline gearNode)]).2 =
      ⟨knotIndex, HelperTable.keepAll {}
        [.enumeration "TeamGear" .string [⟨"Low", "TeamGearLow", "\"low\""⟩]], []⟩ := by
    simp only [runAll, run, propertyType, SchemaIndex.propertyType]
    rfl
  have failed : (((start knotIndex).runAll
      [.property "Team" "gear" (.inline gearNode)]).2.build "Knot" knotNode).1 =
        .error ⟨["Knot", "Knot"]⟩ := by
    rw [typed, build_of_alone_error alone]
  refine ⟨by rw [typed]; rfl, failed, ?_⟩
  exact (build_rolls_back knotIndex [.property "Team" "gear" (.inline gearNode)] failed).1

end Synthesizer

end SchemaCompiler
