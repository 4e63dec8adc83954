import SchemaCompiler.Proofs.Minting
import SchemaCompiler.Proofs.Typing

/-!
Contract: what a minting computation accounts for.

Owns:
- `SchemaIndex.Defines`, the definitions that nodes are built into, and
  `SchemaIndex.MintedBelow`, the helper definitions of the sites below a start;
- `SchemaIndex.Accounts`, the account of a computation: it `Writes` helper
  types that are minted below the start, everything mentioned is declared or
  minted, and a failure is a cycle below the start;
- the rules that build an account step by step.

Does not own: the accounts of the synthesis itself
(`SchemaCompiler.Proofs.Synthesis`).
-/

namespace SchemaCompiler

namespace SchemaIndex

open Minting

variable {index : SchemaIndex} {start : Site} {α β : Type}

/-! ## Definitions -/

/-- What building a node under `name` comes to: one case for each class of
nodes, with the tests that lead to it. -/
inductive Defines (index : SchemaIndex) (trail : List String) (name : String)
    (node : SchemaNode) : TypeDefinition → Prop where
  | enumeration {definition : TypeDefinition} (found : node.enumeration? name = some definition) :
      Defines index trail name node definition
  | mapping {target : TypeExpr} (unlisted : node.enumeration? name = none)
      (aliased : index.mapAlias trail node = .ok (some target)) :
      Defines index trail name node (.transparentAlias (Naming.exportedName name) target)
  | union {definition : TypeDefinition} (unlisted : node.enumeration? name = none)
      (built : index.unionDefinition trail name node = .ok definition) :
      Defines index trail name node definition
  | transparent {target : TypeExpr} (unlisted : node.enumeration? name = none)
      (empty : node.isEmptySchema = true) (undescribed : node.normalDescription = none)
      (typed : index.typeOf trail false (.inline node) = .ok target) :
      Defines index trail name node (.transparentAlias (Naming.exportedName name) target)
  | distinct {target : TypeExpr} {description : String} (unlisted : node.enumeration? name = none)
      (empty : node.isEmptySchema = true) (described : node.normalDescription = some description)
      (typed : index.typeOf trail false (.inline node) = .ok target) :
      Defines index trail name node
        (.distinctAlias (Naming.exportedName name) target description)
  | record {own table : FieldTable} (unlisted : node.enumeration? name = none)
      (unmapped : index.mapAlias trail node = .ok none) (content : node.isEmptySchema ≠ true)
      (contributed :
        Yields (index.contribution trail name (index.requiredNames node) node {}) own)
      (inherited :
        Yields (index.parents trail name (index.requiredNames node) node.allOf own) table) :
      Defines index trail name node
        (.record (Naming.exportedName name) node.normalDescription table.values)

/-- A definition carries the canonical name of its node. -/
theorem Defines.name_eq {trail : List String} {name : String} {node : SchemaNode}
    {definition : TypeDefinition} (defines : index.Defines trail name node definition) :
    definition.name = node.canonicalName name := by
  cases defines with
  | enumeration found => exact SchemaNode.name_of_enumeration found
  | union unlisted built =>
      rw [SchemaNode.canonicalName_of_no_enumeration unlisted]
      exact name_of_unionDefinition built
  | mapping unlisted | transparent unlisted | distinct unlisted | record unlisted =>
      exact (SchemaNode.canonicalName_of_no_enumeration unlisted).symm

/-- Nothing but an enumeration is built into one. -/
theorem Defines.enumeration?_eq {trail : List String} {name : String} {node : SchemaNode}
    {definition : TypeDefinition} (defines : index.Defines trail name node definition)
    {base : TypeExpr} {constants : List EnumConstant}
    (enumerates : definition.shape = .enumeration base constants) :
    node.enumeration? name = some definition := by
  cases defines with
  | enumeration found => exact found
  | union _ built =>
      obtain ⟨fields, -, rfl⟩ := exists_of_map_eq_ok built
      cases enumerates
  | mapping | transparent | distinct | record => cases enumerates

theorem defines_of_recordDefinition {trail : List String} {name : String} {node : SchemaNode}
    {definition : TypeDefinition}
    (built : Yields (index.recordDefinition trail name node) definition) :
    index.Defines trail name node definition := by
  rw [recordDefinition] at built
  split at built
  · rename_i enumeration found
    exact .enumeration (eq_of_yields_pure built ▸ found)
  · rename_i unlisted
    obtain ⟨aliased, mapped, rest⟩ := built.of_bind
    have outcome := eq_of_yields_ofExcept mapped
    split at rest
    · exact eq_of_yields_pure rest ▸ .mapping unlisted outcome
    · split at rest
      · rename_i empty
        obtain ⟨type, typed, last⟩ := rest.of_bind
        have settled := eq_of_yields_ofExcept typed
        split at last
        · rename_i described
          exact eq_of_yields_pure last ▸ .distinct unlisted empty described settled
        · rename_i undescribed
          exact eq_of_yields_pure last ▸ .transparent unlisted empty undescribed settled
      · rename_i content
        obtain ⟨own, contributed, afterOwn⟩ := rest.of_bind
        obtain ⟨table, inherited, last⟩ := afterOwn.of_bind
        exact eq_of_yields_pure last ▸ .record unlisted outcome content contributed inherited

/-! ## Helper definitions -/

/-- The definitions that a property with the inline node `node` may have under
the helper name `name`. -/
inductive DefinesHelper (index : SchemaIndex) (trail : List String) (name : String)
    (node : SchemaNode) (definition : TypeDefinition) : Prop where
  | enumeration (found : node.enumeration? name = some definition)
  | union (unlisted : node.enumeration? name = none)
      (built : index.unionDefinition trail name node = .ok definition)
  | record (built : Yields (index.recordDefinition trail name node) definition)

/-- The definition is the helper type of a property met below `start`. -/
inductive MintedBelow (index : SchemaIndex) (start : Site) (definition : TypeDefinition) :
    Prop where
  | intro {trail : List String} {parent : String} {node : SchemaNode} (property : String)
      (reached : index.Descends start ⟨trail, parent, .inline node⟩)
      (defined : index.DefinesHelper trail (index.helperName parent property) node definition)

theorem DefinesHelper.defines {trail : List String} {name : String} {node : SchemaNode}
    {definition : TypeDefinition} (defined : index.DefinesHelper trail name node definition) :
    index.Defines trail name node definition := by
  cases defined with
  | enumeration found => exact .enumeration found
  | union unlisted built => exact .union unlisted built
  | record built => exact defines_of_recordDefinition built

/-! ## Accounts -/

/-- A mentioned name needs no further definition: it was known beforehand, is
declared, or is the name of a helper type that was kept. -/
def Covered (index : SchemaIndex) (known : List String) (minted : List TypeDefinition)
    (leaf : String) : Prop :=
  leaf ∈ known ∨ index.Declares leaf ∨ leaf ∈ minted.map TypeDefinition.name

/-- The account of a result and of the helper types kept on the way to it. -/
structure Account (index : SchemaIndex) (start : Site) (known : List String)
    (mentions : α → List String) (result : Except ReferenceCycle α)
    (minted : List TypeDefinition) : Prop where
  below : ∀ definition ∈ minted, index.MintedBelow start definition
  closed : ∀ definition ∈ minted, ∀ leaf ∈ definition.namedLeaves, index.Covered known minted leaf
  mentioned : ∀ value, result = .ok value → ∀ leaf ∈ mentions value,
    index.Covered known minted leaf
  loops : ∀ cycle, result = .error cycle → index.Loops start cycle

/-- The computation has an account that does not depend on the helper types
there are already. -/
def Accounts (index : SchemaIndex) (start : Site) (known : List String)
    (mentions : α → List String) (computation : Minting α) : Prop :=
  ∃ result minted, computation.Writes result minted ∧
    index.Account start known mentions result minted

theorem Covered.append {known : List String} {minted : List TypeDefinition} {leaf : String}
    (covered : index.Covered known minted leaf) (more : List TypeDefinition) :
    index.Covered known (minted ++ more) leaf := by
  rcases covered with before | declared | kept
  · exact Or.inl before
  · exact Or.inr (Or.inl declared)
  · exact Or.inr (Or.inr (by simp only [List.map_append, List.mem_append, kept, true_or]))

/-- Names known at a later step are covered from the beginning. -/
theorem Covered.after {known later : List String} {minted more : List TypeDefinition}
    {leaf : String} (covered : index.Covered later more leaf)
    (earlier : ∀ name ∈ later, index.Covered known minted name) :
    index.Covered known (minted ++ more) leaf := by
  rcases covered with before | declared | kept
  · exact (earlier leaf before).append more
  · exact Or.inr (Or.inl declared)
  · exact Or.inr (Or.inr (by simp only [List.map_append, List.mem_append, kept, or_true]))

theorem accounts_pure {known : List String} {mentions : α → List String} {value : α}
    (mentioned : ∀ leaf ∈ mentions value, leaf ∈ known) :
    index.Accounts start known mentions (pure value) := by
  refine ⟨.ok value, [], writes_pure value, by simp, by simp, ?_, by simp⟩
  intro other same leaf member
  cases same
  exact Or.inl (mentioned leaf member)

theorem accounts_throw {known : List String} {mentions : α → List String} {cycle : ReferenceCycle}
    (loops : index.Loops start cycle) :
    index.Accounts start known mentions (throw cycle) := by
  refine ⟨.error cycle, [], writes_throw cycle, by simp, by simp, by simp, ?_⟩
  intro other same
  cases same
  exact loops

theorem Explained.accounts {mentions : α → List String} {result : Except ReferenceCycle α}
    (explained : index.Explained start mentions result) :
    index.Accounts start [] mentions (Minting.ofExcept result) := by
  refine ⟨result, [], writes_ofExcept result, by simp, by simp, ?_, explained.loops⟩
  intro value outcome leaf member
  exact Or.inr (Or.inl (explained.declared value outcome leaf member))

/-- Keeping a helper type makes its name a minted one. -/
theorem accounts_remember {definition : TypeDefinition}
    (below : index.MintedBelow start definition) :
    index.Accounts start definition.namedLeaves TypeExpr.namedLeaves
      (TypeExpr.named <$> remember definition) := by
  refine ⟨.ok (.named definition.name), [definition],
    (writes_remember definition).map TypeExpr.named, ?_, ?_, ?_, by simp⟩
  · simpa using below
  · intro other member leaf mentioned
    rw [List.mem_singleton] at member
    exact Or.inl (member ▸ mentioned)
  · intro value same leaf member
    cases same
    rw [List.mem_singleton.1 member]
    exact Or.inr (Or.inr (by simp))

theorem Accounts.bind {known : List String} {mentions : α → List String}
    {further : β → List String} {computation : Minting α} {next : α → Minting β}
    (first : index.Accounts start known mentions computation)
    (second : ∀ value, Yields computation value →
      index.Accounts start (mentions value) further (next value)) :
    index.Accounts start known further (computation >>= next) := by
  obtain ⟨result, minted, writes, account⟩ := first
  cases result with
  | error cycle =>
      refine ⟨.error cycle, minted, writes.bind_error, account.below, account.closed, by simp, ?_⟩
      intro other same
      cases same
      exact account.loops cycle rfl
  | ok value =>
      obtain ⟨result, more, writesMore, accountMore⟩ := second value writes.yields
      have earlier := account.mentioned value rfl
      refine ⟨result, minted ++ more, writes.bind writesMore, ?_, ?_, ?_, accountMore.loops⟩
      · intro definition member
        rcases List.mem_append.1 member with inMinted | inMore
        · exact account.below definition inMinted
        · exact accountMore.below definition inMore
      · intro definition member leaf mentioned
        rcases List.mem_append.1 member with inMinted | inMore
        · exact (account.closed definition inMinted leaf mentioned).append more
        · exact (accountMore.closed definition inMore leaf mentioned).after earlier
      · intro last same leaf member
        exact (accountMore.mentioned last same leaf member).after earlier

theorem Accounts.mono {known wider : List String} {mentions more : α → List String}
    {computation : Minting α} (accounts : index.Accounts start known mentions computation)
    (subset : ∀ leaf ∈ known, leaf ∈ wider)
    (covers : ∀ value, ∀ leaf ∈ more value, leaf ∈ wider ∨ leaf ∈ mentions value) :
    index.Accounts start wider more computation := by
  obtain ⟨result, minted, writes, account⟩ := accounts
  have widen : ∀ leaf, index.Covered known minted leaf → index.Covered wider minted leaf := by
    intro leaf covered
    exact covered.imp_left (subset leaf)
  refine ⟨result, minted, writes, account.below, ?_, ?_, account.loops⟩
  · intro definition member leaf mentioned
    exact widen leaf (account.closed definition member leaf mentioned)
  · intro value outcome leaf member
    rcases covers value leaf member with before | inValue
    · exact Or.inl before
    · exact widen leaf (account.mentioned value outcome leaf inValue)

/-- What was known beforehand may be mentioned afterwards. -/
theorem Accounts.keeping {mentions : α → List String} {computation : Minting α}
    (accounts : index.Accounts start [] mentions computation) (known : List String) :
    index.Accounts start known (fun value => known ++ mentions value) computation := by
  apply accounts.mono
  · simp
  · intro value leaf member
    exact List.mem_append.1 member

theorem Accounts.weaken {known wider : List String} {mentions : α → List String}
    {computation : Minting α} (accounts : index.Accounts start known mentions computation)
    (subset : ∀ leaf ∈ known, leaf ∈ wider) :
    index.Accounts start wider mentions computation :=
  accounts.mono subset fun _ _ member => Or.inr member

end SchemaIndex

end SchemaCompiler
