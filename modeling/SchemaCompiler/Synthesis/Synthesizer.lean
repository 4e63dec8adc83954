import SchemaCompiler.Synthesis.Record

/-!
Contract: a run of type synthesis over one index.

Owns:
- `Synthesizer`, the index together with the helper types minted so far and the
  trail of names being resolved;
- the operations on it, one by one and as `Request`s answered by
  `Synthesizer.run`;
- `Synthesizer.build`, which alone discards the helpers of a failed attempt.

Does not own: the order in which schemas are built
(`SchemaCompiler.Synthesis.Catalog`).
-/

namespace SchemaCompiler

/-- The state of a run. Between operations the trail is empty. -/
structure Synthesizer where
  index : SchemaIndex
  helpers : HelperTable := {}
  trail : List String := []

/-- The definitions made for one named schema: its own, and the helper types
first minted for it, in minting order. -/
structure SynthesizedType where
  definition : TypeDefinition
  helpers : List TypeDefinition
deriving Repr

namespace Synthesizer

/-- A run that has minted nothing yet. -/
def start (index : SchemaIndex) : Synthesizer := { index }

/-- Runs a minting computation on the helpers of a synthesizer. -/
def minting {α : Type} (synthesizer : Synthesizer) (computation : Minting α) :
    Except ReferenceCycle α × Synthesizer :=
  let (result, helpers) := (computation.run).run synthesizer.helpers
  (result, { synthesizer with helpers })

def typeOf (synthesizer : Synthesizer) (schema : Schema) (allowUnion : Bool) :
    Except ReferenceCycle TypeExpr :=
  synthesizer.index.typeOf synthesizer.trail allowUnion schema

/-- The mapping type of a node that is nothing else. -/
def mapAlias (synthesizer : Synthesizer) (node : SchemaNode) :
    Except ReferenceCycle (Option TypeExpr) :=
  synthesizer.index.mapAlias synthesizer.trail node

def unionDefinition (synthesizer : Synthesizer) (name : String) (node : SchemaNode) :
    Except ReferenceCycle TypeDefinition :=
  synthesizer.index.unionDefinition synthesizer.trail name node

def propertyType (synthesizer : Synthesizer) (parent property : String) (schema : Schema) :
    Except ReferenceCycle TypeExpr × Synthesizer :=
  synthesizer.minting
    (synthesizer.index.propertyType synthesizer.trail parent property schema)

/-- The definition of a node that is flattened into a record. -/
def recordDefinition (synthesizer : Synthesizer) (name : String) (node : SchemaNode) :
    Except ReferenceCycle TypeDefinition × Synthesizer :=
  synthesizer.minting (synthesizer.index.recordDefinition synthesizer.trail name node)

/-- The definition of a named schema: an enumeration, a mapping alias, a union,
or whatever its record comes to. -/
def namedDefinition (index : SchemaIndex) (trail : List String) (name : String)
    (node : SchemaNode) : Minting TypeDefinition :=
  match node.enumeration? name with
  | some definition => return definition
  | none => do
      match ← Minting.ofExcept (index.mapAlias trail node) with
      | some target => return .transparentAlias (Naming.exportedName name) target
      | none =>
          if node.isUnion then Minting.ofExcept (index.unionDefinition trail name node)
          else index.recordDefinition trail name node

/-- Builds the named schema `name`. A cycle fails this schema alone: the helpers
are then cut back to as many as there were before. -/
def build (synthesizer : Synthesizer) (name : String) (node : SchemaNode) :
    Except ReferenceCycle SynthesizedType × Synthesizer :=
  let computation := namedDefinition synthesizer.index [name] name node
  let (result, helpers) := (computation.run).run synthesizer.helpers
  match result with
  | .ok definition =>
      (.ok ⟨definition, helpers.values.drop synthesizer.helpers.size⟩,
        { synthesizer with helpers, trail := [] })
  | .error cycle =>
      (.error cycle,
        { synthesizer with helpers := helpers.truncate synthesizer.helpers.size, trail := [] })

/-! ## Requests -/

/-- One operation with its arguments. -/
inductive Request where
  | build (name : String) (node : SchemaNode)
  | typeOf (schema : Schema) (allowUnion : Bool)
  | property (parent property : String) (schema : Schema)
  | mapAlias (node : SchemaNode)
  | union (name : String) (node : SchemaNode)
  | record (name : String) (node : SchemaNode)

inductive Answer where
  | built (made : SynthesizedType)
  | typed (type : TypeExpr)
  | aliased (type : Option TypeExpr)
  | defined (definition : TypeDefinition)
deriving Repr

def run (synthesizer : Synthesizer) : Request → Except ReferenceCycle Answer × Synthesizer
  | .build name node =>
      let (result, after) := synthesizer.build name node
      (result.map .built, after)
  | .typeOf schema allowUnion => ((synthesizer.typeOf schema allowUnion).map .typed, synthesizer)
  | .property parent property schema =>
      let (result, after) := synthesizer.propertyType parent property schema
      (result.map .typed, after)
  | .mapAlias node => ((synthesizer.mapAlias node).map .aliased, synthesizer)
  | .union name node => ((synthesizer.unionDefinition name node).map .defined, synthesizer)
  | .record name node =>
      let (result, after) := synthesizer.recordDefinition name node
      (result.map .defined, after)

end Synthesizer

end SchemaCompiler
