import SchemaCompiler.CommandLine

/-!
Contract: the command line program.

Owns: the files and the streams of the running machine. Files are read into a
`FileTree`, and the model is written to the output file or to the standard
output; all decisions are those of `GenerateOptions.text`.
-/

namespace SchemaCompiler

/-- The tree at a path. Below the top, what cannot be read is left out. -/
partial def treeAt (path : String) : IO FileTree := do
  let mut entries := #[]
  for entry in ← (System.mkFilePath [path]).readDir do
    let below := FileTree.joined path entry.fileName
    try
      match (← (System.mkFilePath [below]).symlinkMetadata).type with
      | .dir => entries := entries.push (entry.fileName, ← treeAt below)
      | .file =>
          let content ← IO.FS.readBinFile below
          entries := entries.push (entry.fileName, .file content.toList)
      | _ => pure ()
    catch _ => pure ()
  return .directory entries.toList

/-- What the path of the schema directory leads to. -/
def schemasAt (path : String) : IO (Except PathFault FileTree) := do
  try return .ok (← treeAt path)
  catch
  | .noFileOrDirectory .. => return .error .missing
  | _ => return .error .unusable

/-- What the path of the manifest leads to. What is there and cannot be read as
a file counts as a directory. -/
def manifestAt (path : String) : IO (Except PathFault FileTree) := do
  if path ≠ "" ∧ (← (System.mkFilePath [path]).pathExists) then
    try return .ok (.file (← IO.FS.readBinFile path).toList)
    catch _ => return .ok (.directory [])
  else return .error .missing

/-- Writes the model where the options ask for it. -/
def writeModel (options : GenerateOptions) (text : String) : IO Unit := do
  match options.output with
  | none =>
      let output ← IO.getStdout
      output.putStr text
      output.flush
  | some path =>
      match (System.mkFilePath [path]).parent with
      | some parent => IO.FS.createDirAll parent
      | none => pure ()
      IO.FS.writeFile path text

/-- Reports a failure; the result is the exit code. -/
def report (message : String) : IO UInt32 := do
  (← IO.getStderr).putStrLn ("Error: " ++ message)
  return 1

end SchemaCompiler

open SchemaCompiler in
/-- Runs the command that the words ask for. -/
def main (words : List String) : IO UInt32 := do
  match CommandLine.parse words with
  | .error fault => report fault.message
  | .ok options =>
      match options.text (← schemasAt options.schemas) (← manifestAt options.manifest) with
      | .error fault => report fault.message
      | .ok text =>
          try
            writeModel options text
            return 0
          catch _ => report GenerationFault.inaccessible.message
