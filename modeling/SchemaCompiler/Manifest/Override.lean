import SchemaCompiler.Manifest.Basic
import SchemaCompiler.Json.Text

/-!
Contract: the shapes a field override may be written in.

Owns:
- `FieldOverride.ofJson`, which reads a name, a record of name, type,
  description and default, or a mapping whose first entry gives name and type;
- `OverrideFault`, the two ways in which a value is no override.

A mapping is a record when its known keys have the right shape and something
usable is among them; every other mapping is read by its first entry.

Does not own: the text form of manifests.
-/

namespace SchemaCompiler

/-- Why a value is no field override. -/
inductive OverrideFault where
  | emptyMapping
  | invalid (value : Json)
deriving Repr

def OverrideFault.message : OverrideFault → String
  | .emptyMapping => "empty field mapping"
  | .invalid value => "invalid field override: " ++ value.compact

namespace FieldOverride

def nonEmpty (text : Option String) : Option String :=
  text.filter (· ≠ "")

/-- An optional text of a record: absent and null are none, and a value of any
other shape makes the record unusable. -/
def optionalText (value : Option Json) : Option (Option String) :=
  match value with
  | none | some .null => some none
  | some (.string text) => some (some text)
  | some _ => none

/-- The name of a record, empty when absent; it must be text. -/
def recordName (value : Option Json) : Option String :=
  match value with
  | none => some ""
  | some (.string text) => some text
  | some _ => none

/-- The override that a mapping spells out as a record. Empty texts and null
count as absent, and other keys are passed over. -/
def ofRecord? (entries : List (String × Json)) : Option FieldOverride := do
  let name ← recordName (Entries.find? entries "name")
  let type ← optionalText (Entries.find? entries "type")
  let description ← optionalText (Entries.find? entries "description")
  let field : FieldOverride :=
    { name
      type := nonEmpty type
      description := nonEmpty description
      default := (Entries.find? entries "default").filter fun value => !value.isNull }
  if field.name ≠ "" ∨ field.hasOverride then some field else none

/-- The type text that the value of an entry stands for. -/
def entryType (value : Json) : Option String :=
  if value.isScalar then nonEmpty (some value.scalarText) else none

def ofJson : Json → Except OverrideFault FieldOverride
  | .string name => .ok (named name)
  | .object entries =>
      match ofRecord? entries with
      | some field => .ok field
      | none =>
          match entries with
          | [] => .error .emptyMapping
          | (name, value) :: _ => .ok { name, type := entryType value }
  | other => .error (.invalid other)

end FieldOverride

end SchemaCompiler
