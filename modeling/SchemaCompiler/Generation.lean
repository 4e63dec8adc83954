import SchemaCompiler.Loading
import SchemaCompiler.Text.Shown
import SchemaCompiler.Manifest.Reader
import SchemaCompiler.Model.Rendering

/-!
Contract: one run of the compiler from files to a written model.

Owns:
- `GenerateOptions`, what a run is told;
- `GenerationFault`, the ways in which a run fails, with their wording;
- `GenerateOptions.text`, the written model of the files that the options lead
  to, and `FileTree.generate`, which writes it into the tree.

Faults are met in a fixed order: the manifest must exist, then the schema
directory must be readable, then the manifest must be well formed, and last the
output must be writable.

Does not own: the files of the running machine (`SchemaCompiler.Main`).
-/

namespace SchemaCompiler

/-- What a run is told. Without an output path the model goes to the standard
output. -/
structure GenerateOptions where
  schemas : String
  manifest : String
  format : OutputFormat := .json
  output : Option String := none
deriving DecidableEq, Repr

inductive GenerationFault where
  | manifestMissing (path : String)
  | manifestUnreadable
  | manifest (fault : ManifestFault)
  | inaccessible
deriving Repr

namespace GenerationFault

/-- The characters that stand for `character` in a quoted path: quotes,
backslashes and characters that are not shown are escaped. -/
def escapedInPath (character : Char) : List Char :=
  if character = '"' then ['\\', '"']
  else if character = '\\' then ['\\', '\\']
  else if character = '\t' then ['\\', 't']
  else if character = '\n' then ['\\', 'n']
  else if character = '\r' then ['\\', 'r']
  else if character.toNat = 0 then ['\\', '0']
  else if Text.isShown character then [character]
  else ['\\', 'u', '\x7b'] ++ Nat.toDigits 16 character.toNat ++ ['\x7d']

def quotedPath (path : String) : String :=
  String.ofList ('"' :: path.toList.flatMap escapedInPath ++ ['"'])

def message : GenerationFault → String
  | .manifestMissing path => "Operation failed: Control manifest not found: " ++ quotedPath path
  | .manifestUnreadable => "Manifest Error: unreadable"
  | .manifest .malformed => "Manifest Error: malformed"
  | .manifest (.override fault) => "Manifest Error: " ++ fault.message
  | .inaccessible => "IO Error"

end GenerationFault

def ControlManifest.ofFile : FileTree → Except GenerationFault ControlManifest
  | .directory _ => .error .manifestUnreadable
  | .file content =>
      match Text.decodeStrict? content with
      | none => .error .manifestUnreadable
      | some characters => (parse (String.ofList characters)).mapError .manifest

namespace GenerateOptions

/-- The written model of a schema directory under a manifest, each being what
its path was found to lead to. -/
def text (options : GenerateOptions) (schemas manifest : Except PathFault FileTree) :
    Except GenerationFault String := do
  let file ← manifest.mapError fun _ => GenerationFault.manifestMissing options.manifest
  let index ←
    (SchemaIndex.ofDirectory options.schemas schemas).mapError fun _ => GenerationFault.inaccessible
  let control ← ControlManifest.ofFile file
  return (index.compile control).render options.format

end GenerateOptions

/-- Runs the compiler on a tree. The result is the tree with the written model,
beside its text. -/
def FileTree.generate (tree : FileTree) (options : GenerateOptions) :
    Except GenerationFault (FileTree × String) := do
  let text ← options.text (tree.locate options.schemas) (tree.locate options.manifest)
  match options.output with
  | none => return (tree, text)
  | some path =>
      let written ←
        (tree.write path (Text.utf8Bytes text.toList)).mapError
          fun _ => GenerationFault.inaccessible
      return (written, text)

end SchemaCompiler
