import SchemaCompiler.Synthesis.Synthesizer

/-!
Contract: the list of all generated types of an index.

Owns:
- `SchemaIndex.builtTypes`, what a run makes of every declared schema in order;
- `SchemaIndex.synthesizeTypes`, the emitted definitions, of which the first of
  each name is kept.

A schema that does not resolve, or that fails with a cycle, is left out.

Does not own: resources, whose schemas are skipped.
-/

namespace SchemaCompiler

/-- The definitions emitted for one schema. A definition without a name is left
out, its helpers are not. -/
def SynthesizedType.emitted (made : SynthesizedType) : List TypeDefinition :=
  (if made.definition.name = "" then [] else [made.definition]) ++ made.helpers

/-- The first definition of each name that is not among `seen`. -/
def firstOfEachName (seen : List String) : List TypeDefinition → List TypeDefinition
  | [] => []
  | definition :: rest =>
      if definition.name ∈ seen then firstOfEachName seen rest
      else definition :: firstOfEachName (definition.name :: seen) rest

namespace Synthesizer

/-- Builds the named schemas in order, leaving out those that do not resolve or
fail. -/
def buildAll (synthesizer : Synthesizer) : List String → List SynthesizedType
  | [] => []
  | name :: rest =>
      match synthesizer.index.lookup name with
      | none => buildAll synthesizer rest
      | some node =>
          match synthesizer.build name node with
          | (.ok made, after) => made :: buildAll after rest
          | (.error _, after) => buildAll after rest

end Synthesizer

namespace SchemaIndex

/-- What a run makes of the declared schemas outside `skip`. -/
def builtTypes (index : SchemaIndex) (skip : List String) : List SynthesizedType :=
  (Synthesizer.start index).buildAll (index.names.filter fun name => name ∉ skip)

/-- The definitions of all declared schemas outside `skip` and of their helper
types. -/
def synthesizeTypes (index : SchemaIndex) (skip : List String) : List TypeDefinition :=
  firstOfEachName [] ((index.builtTypes skip).flatMap SynthesizedType.emitted)

end SchemaIndex

end SchemaCompiler
