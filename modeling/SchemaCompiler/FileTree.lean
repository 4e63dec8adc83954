import SchemaCompiler.Entries
import SchemaCompiler.Text.Utf8

/-!
Contract: directories of files, and the paths that lead through them.

Owns:
- `FileTree`, a file or a directory with its entries;
- `FileTree.locate`, what a path leads to, steps to the same and to the upper
  directory included;
- `FileTree.filesBelow`, all files of a directory in the order in which they
  are visited;
- `FileTree.write`, which makes the directories that are missing on the way.

A path that leads nowhere because a name is missing is told apart from one that
cannot be followed at all, such as one through a file.

Does not own: what files mean.
-/

namespace SchemaCompiler

/-- A file, or a directory with its entries by name. -/
inductive FileTree where
  | file (content : List UInt8)
  | directory (entries : List (String × FileTree))
deriving Inhabited

/-- Why a path cannot be used. -/
inductive PathFault where
  | missing
  | unusable
deriving DecidableEq, Repr

/-- A file met on the way through a directory. -/
structure FoundFile where
  path : String
  name : String
  content : List UInt8

namespace FileTree

/-! ## Names and paths -/

/-- The longest name of a directory entry, in bytes. -/
def nameLimit : Nat := 255

/-- The length that all paths stay below, in bytes. -/
def pathLimit : Nat := 4096

/-- The parts of a text between separators. -/
def splitOn (separator : Char) : List Char → List (List Char)
  | [] => [[]]
  | character :: rest =>
      if character = separator then [] :: splitOn separator rest
      else
        match splitOn separator rest with
        | [] => [[character]]
        | part :: parts => (character :: part) :: parts

/-- The names on a path. Repeated slashes count once. -/
def segments (path : String) : List String :=
  ((splitOn '/' path.toList).filter fun part => !part.isEmpty).map String.ofList

/-- True for paths that name a directory by a slash at their end. -/
def endsInSlash (path : String) : Bool :=
  path.toList.getLast? = some '/'

/-- A path made longer by a name. -/
def joined (path name : String) : String :=
  if path = "" ∨ endsInSlash path then path ++ name else path ++ "/" ++ name

/-- True for paths that begin outside the tree. -/
def isAbsolute (path : String) : Bool :=
  path.toList.head? = some '/'

/-- True for the steps that are no names of entries. -/
def isRelativeStep (segment : String) : Bool :=
  segment = "." || segment = ".."

/-- The part of a name behind its last point. A name without a point, or with
none but its first character, has no extension. -/
def extension? (name : String) : Option (List Char) :=
  let characters := name.toList
  let extension := (characters.reverse.takeWhile (· ≠ '.')).reverse
  if isRelativeStep name || characters.length ≤ extension.length + 1 then none
  else some extension

/-! ## Looking things up -/

/-- What stands at a place, given by the names from the top down. -/
def at? (tree : FileTree) : List String → Option FileTree
  | [] => some tree
  | name :: rest =>
      match tree with
      | .directory entries => (Entries.find? entries name).bind fun entry => at? entry rest
      | .file _ => none

/-- The place that steps from the place `reached` lead to. Nothing is above the
top. -/
def follow (tree : FileTree) (reached : List String) : List String → Except PathFault (List String)
  | [] => .ok reached
  | step :: rest =>
      match tree.at? reached with
      | some (.directory entries) =>
          if step = "." then follow tree reached rest
          else if step = ".." then
            if reached.isEmpty then .error .missing else follow tree reached.dropLast rest
          else if nameLimit < step.utf8ByteSize then .error .unusable
          else if Entries.has entries step then follow tree (reached ++ [step]) rest
          else .error .missing
      | some (.file _) => .error .unusable
      | none => .error .missing

/-- True for texts that can be paths at all. -/
def isPath (path : String) : Bool :=
  path.utf8ByteSize < pathLimit && !path.toList.contains (Char.ofNat 0)

/-- What a path leads to. Empty and absolute paths lead nowhere, and a slash at
the end asks for a directory. -/
def locate (tree : FileTree) (path : String) : Except PathFault FileTree :=
  if !isPath path then .error .unusable
  else if path = "" || isAbsolute path then .error .missing
  else do
    match tree.at? (← follow tree [] (segments path)) with
    | some (.file content) =>
        if endsInSlash path then .error .unusable else .ok (.file content)
    | some (.directory entries) => .ok (.directory entries)
    | none => .error .missing

mutual

/-- The files at and below `path`, whose last name is `name`. The entries of a
directory are visited in the order of their names, a directory at its place. -/
def filesUnder (path name : String) : FileTree → List FoundFile
  | .file content => [⟨path, name, content⟩]
  | .directory entries =>
      ((filesByName path entries).mergeSort fun left right => !(right.1 < left.1)).flatMap Prod.snd

/-- For each entry of the directory at `path`, its name and its files. -/
def filesByName (path : String) : List (String × FileTree) → List (String × List FoundFile)
  | [] => []
  | (name, entry) :: rest =>
      (name, filesUnder (joined path name) name entry) :: filesByName path rest

end

/-- The files below the directory at `path`, in the order of visiting. -/
def filesBelow (path : String) (tree : FileTree) : List FoundFile :=
  filesUnder path path tree

/-! ## Writing -/

/-- The tree with `entry` put at a place. Directories that are missing on the
way to it are made. -/
def put (tree : FileTree) (entry : FileTree) : List String → FileTree
  | [] => entry
  | name :: rest =>
      match tree with
      | .directory entries =>
          let inner := (Entries.find? entries name).getD (.directory [])
          .directory (Entries.insert entries name (put inner entry rest))
      | .file content => .file content

/-- Follows steps from the place `reached`, making the directories that are
missing, and gives the place they lead to. -/
def makeDirectories (tree : FileTree) (reached : List String) :
    List String → Except PathFault (FileTree × List String)
  | [] => .ok (tree, reached)
  | step :: rest =>
      if step = "." then makeDirectories tree reached rest
      else if step = ".." then makeDirectories tree reached.dropLast rest
      else if nameLimit < step.utf8ByteSize then .error .unusable
      else
        let place := reached ++ [step]
        match tree.at? place with
        | some (.directory _) => makeDirectories tree place rest
        | some (.file _) => .error .unusable
        | none => makeDirectories (tree.put (.directory []) place) place rest

/-- Makes the directory at a path with all directories above it. -/
def makeDirectory (tree : FileTree) (path : String) : Except PathFault FileTree :=
  if !isPath path then .error .unusable
  else (makeDirectories tree [] (segments path)).map Prod.fst

/-- Writes a file, making the directories above it. A path that names a
directory cannot be written. -/
def write (tree : FileTree) (path : String) (content : List UInt8) : Except PathFault FileTree :=
  match (segments path).getLast? with
  | none => .error .missing
  | some name =>
      if !isPath path || endsInSlash path || isRelativeStep name ||
          nameLimit < name.utf8ByteSize then
        .error .unusable
      else do
        let (extended, parent) ← makeDirectories tree [] (segments path).dropLast
        let place := parent ++ [name]
        match extended.at? place with
        | some (.directory _) => .error .unusable
        | _ => .ok (extended.put (.file content) place)

end FileTree

end SchemaCompiler
