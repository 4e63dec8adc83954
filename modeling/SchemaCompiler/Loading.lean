import SchemaCompiler.Index
import SchemaCompiler.FileTree
import SchemaCompiler.Yaml.Untyped

/-!
Contract: the index of the schema documents found in files.

Owns:
- `Document.ofText?`, a document read from YAML text;
- `SchemaIndex.registerText`, after which a rejected text leaves the index as
  it was;
- `SchemaIndex.ofFiles`, which passes over files that are no schema documents.

Does not own: which files there are (`SchemaCompiler.FileTree`).
-/

namespace SchemaCompiler

/-- The document that a text stands for. -/
def Document.ofText? (text : String) : Option Document :=
  (Yaml.parseJson? text).bind Document.ofJson?

/-- The extensions of schema documents, in lower case. -/
def schemaExtensions : List String := ["yaml", "yml"]

/-- True for file names with the extension of a schema document, in upper or
lower case. -/
def isSchemaFile (name : String) : Bool :=
  match FileTree.extension? name with
  | some extension => schemaExtensions.contains (String.ofList (extension.map Char.toLower))
  | none => false

/-- The document in a file: its content must be text in UTF-8. -/
def Document.ofBytes? (content : List UInt8) : Option Document :=
  (Text.decodeStrict? content).bind fun characters => ofText? (String.ofList characters)

namespace SchemaIndex

/-- Adds the document that a text stands for; `none` when it stands for none. -/
def registerText? (index : SchemaIndex) (path text : String) : Option SchemaIndex :=
  (Document.ofText? text).map (index.register path)

/-- Adds the document that a text stands for, if it stands for one. -/
def registerText (index : SchemaIndex) (path text : String) : SchemaIndex :=
  (index.registerText? path text).getD index

/-- Adds the document in a file, if the file holds one. -/
def registerFile (index : SchemaIndex) (file : FoundFile) : SchemaIndex :=
  if isSchemaFile file.name then
    match Document.ofBytes? file.content with
    | some document => index.register file.path document
    | none => index
  else index

/-- The index of all documents in a list of files, in order. -/
def ofFiles (files : List FoundFile) : SchemaIndex :=
  files.foldl registerFile {}

/-- The index of the schema directory that a path was found to lead to. A path
that leads nowhere gives the empty index. -/
def ofDirectory (path : String) : Except PathFault FileTree → Except PathFault SchemaIndex
  | .ok (.directory entries) => .ok (ofFiles (FileTree.filesBelow path (.directory entries)))
  | .ok (.file _) => .error .unusable
  | .error .missing => .ok {}
  | .error .unusable => .error .unusable

end SchemaIndex

end SchemaCompiler
