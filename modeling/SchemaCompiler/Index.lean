import SchemaCompiler.Document

/-!
Contract: the merged index of all loaded schemas.

Owns:
- `SchemaIndex`, the documents in load order and one table of named schemas;
- `SchemaIndex.register`, under which the last declaration of a name wins and
  the name keeps its first position;
- `SchemaIndex.lookup`, which follows entries that are only references, and
  `SchemaIndex.resolve`.

A chain of references that loops or leaves the index has no node.

Does not own: where documents come from.
-/

namespace SchemaCompiler

structure DocumentEntry where
  path : String
  info : DocumentInfo
  schemaNames : List String
deriving DecidableEq, Repr

/-- All loaded documents and their schemas by name. -/
structure SchemaIndex where
  documents : List DocumentEntry := []
  schemas : OrderedTable Schema := {}

namespace SchemaIndex

def empty : SchemaIndex := {}

def register (index : SchemaIndex) (path : String) (document : Document) : SchemaIndex :=
  { documents := index.documents ++ [⟨path, document.info, document.schemas.map Prod.fst⟩]
    schemas := document.schemas.foldl
      (fun table entry => table.insert entry.1 entry.2) index.schemas }

/-- The schema names in order of first declaration. -/
def names (index : SchemaIndex) : List String :=
  index.schemas.keys

def size (index : SchemaIndex) : Nat :=
  index.schemas.size

def contains (index : SchemaIndex) (name : String) : Bool :=
  index.schemas.has name

/-- The node reached from `name` through at most `steps` entries that are only
references. -/
def lookupWithin (index : SchemaIndex) : Nat → String → Option SchemaNode
  | 0, _ => none
  | steps + 1, name =>
      match index.schemas.find? name with
      | none => none
      | some (.inline node) => some node
      | some (.reference target) => lookupWithin index steps target.schemaName

/-- The node that `name` stands for. A chain with more entries than there are
names has come back to one of them and never ends. -/
def lookup (index : SchemaIndex) (name : String) : Option SchemaNode :=
  index.lookupWithin (index.size + 1) name

def resolve (index : SchemaIndex) (target : Reference) : Option SchemaNode :=
  index.lookup target.schemaName

/-- The node of an inline schema, or the one its reference points at. -/
def nodeOf (index : SchemaIndex) : Schema → Option SchemaNode
  | .inline node => some node
  | .reference target => index.resolve target

end SchemaIndex

end SchemaCompiler
