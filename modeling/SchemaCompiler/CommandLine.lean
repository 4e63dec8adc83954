import SchemaCompiler.Generation

/-!
Contract: the words of a command line.

Owns:
- `CommandLine.parse`, which reads the only command `generate` with its options,
  a value standing behind its option or joined to it by an equals sign;
- `CommandLineFault` and its wording.

Every option is given at most once, and unknown words are faults.

Does not own: running the command.
-/

namespace SchemaCompiler

/-- Why a command line is refused. -/
inductive CommandLineFault where
  | noCommand
  | unknown (word : String)
  | repeated (option : String)
  | valueMissing (option : String)
  | optionMissing (option : String)
  | unknownFormat (word : String)
deriving DecidableEq, Repr

def CommandLineFault.message : CommandLineFault → String
  | .noCommand => "a command is required: generate"
  | .unknown word => "unexpected argument: " ++ word
  | .repeated option => "option given more than once: " ++ option
  | .valueMissing option => "a value is required behind: " ++ option
  | .optionMissing option => "option required: " ++ option
  | .unknownFormat word => "unknown format: " ++ word

namespace CommandLine

def optionNames : List String := ["--schemas", "--manifest", "--format", "--output"]

/-- An option with the value joined to it by an equals sign, if there is one. -/
def joinedValue? (word : String) : Option (String × String) :=
  match word.toList.span (· ≠ '=') with
  | (name, _ :: value) => some (String.ofList name, String.ofList value)
  | _ => none

def noted (given : Entries String) (option value : String) :
    Except CommandLineFault (Entries String) :=
  if option ∉ optionNames then .error (.unknown option)
  else if Entries.has given option then .error (.repeated option)
  else .ok (given ++ [(option, value)])

/-- The values of all options among the words. -/
def values (given : Entries String) : List String → Except CommandLineFault (Entries String)
  | [] => .ok given
  | word :: rest =>
      match joinedValue? word with
      | some (option, value) => do values (← noted given option value) rest
      | none =>
          if word ∉ optionNames then .error (.unknown word)
          else
            match rest with
            | [] => .error (.valueMissing word)
            | value :: others => do values (← noted given word value) others

/-- The value of an option that must be given. -/
def required (given : Entries String) (option : String) : Except CommandLineFault String :=
  match Entries.find? given option with
  | some value => .ok value
  | none => .error (.optionMissing option)

def options (given : Entries String) : Except CommandLineFault GenerateOptions := do
  let word := (Entries.find? given "--format").getD OutputFormat.json.word
  match OutputFormat.ofWord? word with
  | none => .error (.unknownFormat word)
  | some format =>
      return {
        schemas := ← required given "--schemas"
        manifest := ← required given "--manifest"
        format := format
        output := Entries.find? given "--output" }

/-- The run that a command line asks for. -/
def parse : List String → Except CommandLineFault GenerateOptions
  | [] => .error .noCommand
  | command :: rest =>
      if command = "generate" then do options (← values [] rest) else .error (.unknown command)

end CommandLine

end SchemaCompiler
