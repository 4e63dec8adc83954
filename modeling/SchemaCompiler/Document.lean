import SchemaCompiler.Schema.Decode

/-!
Contract: schema documents, the files that schemas are declared in.

Owns:
- `Document`, the metadata and the named schemas of one document;
- `Document.withHeader`, the header given to a bare fragment, a mapping
  without an `openapi` marker;
- `Document.ofJson?`, which accepts a document exactly when its frame is well
  shaped, whatever stands inside its schemas.

Does not own: the text form of documents, or the index they are merged into.
-/

namespace SchemaCompiler

structure DocumentInfo where
  title : String := ""
  version : String := ""
deriving DecidableEq, Repr

/-- The parts of a document that the compiler reads. -/
structure Document where
  info : DocumentInfo
  schemas : List (String × Schema)
deriving Repr

namespace DocumentInfo

def ofFragment : DocumentInfo := ⟨"schema", "0.0.0"⟩

/-- A metadata text: any value, as bare text. -/
def textOf (value : Option Json) : String :=
  (value.map Json.scalarText).getD ""

def ofJson? (value : Json) : Option DocumentInfo :=
  if value.isRecord 2 then
    some ⟨textOf (value.member? "title" 0), textOf (value.member? "version" 1)⟩
  else none

end DocumentInfo

namespace Document

/-- The version marker of a bare fragment. -/
def fragmentVersion : String := "3.0.0"

/-- Adds a minimal header to a mapping without an `openapi` marker. Metadata
that is there already stays, and no other value is changed. -/
def withHeader (value : Json) : Json :=
  match value with
  | .object entries =>
      if Entries.has entries "openapi" then value
      else
        let marked := Entries.insert entries "openapi" (.string fragmentVersion)
        if Entries.has marked "info" then .object marked
        else
          .object (Entries.insert marked "info" (.object
            [("title", .string DocumentInfo.ofFragment.title),
             ("version", .string DocumentInfo.ofFragment.version)]))
  | other => other

/-- The named schemas of a components record. -/
def schemasOf? (components : Json) : Option (List (String × Schema)) :=
  if components.isRecord 1 then
    match components.member? "schemas" 0 with
    | none => some []
    | some (.object entries) => Schema.ofEntries? entries
    | some _ => none
  else none

/-- The document a value with a header stands for. -/
def ofHeaded? (value : Json) : Option Document := do
  guard (value.isRecord 3)
  let _ ← value.member? "openapi" 0
  let info ←
    match value.member? "info" 1 with
    | none => some {}
    | some record => DocumentInfo.ofJson? record
  let schemas ←
    match value.member? "components" 2 with
    | none | some .null => some []
    | some components => schemasOf? components
  return ⟨info, schemas⟩

def ofJson? (value : Json) : Option Document :=
  ofHeaded? (withHeader value)

end Document

end SchemaCompiler
