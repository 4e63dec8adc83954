import SchemaCompiler.Text.Lowercase

/-!
Contract: the identifiers under which types, fields and constants are emitted.

Owns:
- `exportedName`, the canonical identifier of a schema or property name;
- the derived names of helper types, enumeration types and constants;
- `firstFree`, the numbering of names that are already taken.

Does not own: which names are taken in a given index.
-/

namespace SchemaCompiler.Naming

/-- Keeps ASCII letters and digits; the first one of each run is upper-cased.
`starting` tells whether the next one begins a run. -/
def exportedFrom (starting : Bool) : List Char → List Char
  | [] => []
  | character :: rest =>
      if character.isAlphanum then
        (if starting then character.toUpper else character) :: exportedFrom false rest
      else exportedFrom true rest

/-- The text put before an identifier that would begin with a digit. -/
def digitLead : List Char := ['F', 'i', 'e', 'l', 'd']

/-- The canonical identifier of a list of characters. -/
def exportedChars (name : List Char) : List Char :=
  match exportedFrom true name with
  | [] => []
  | first :: rest => if first.isDigit then digitLead ++ first :: rest else first :: rest

/-- The canonical identifier of a name: its runs of ASCII letters and digits,
each begun in upper case, with `Field` before a leading digit. -/
def exportedName (name : String) : String :=
  String.ofList (exportedChars name.toList)

/-- The name with its first character in lower case. -/
def lowerCamel (name : String) : String :=
  match name.toList with
  | [] => ""
  | first :: rest => String.ofList (Text.lowercase first ++ rest)

/-- The name of the helper type for a property of a parent type. -/
def helperName (parent property : String) : String :=
  exportedName parent ++ exportedName property

/-- The name up to its last ASCII upper-case letter, or the whole name when it
has none. -/
def enumTypeName (constant : String) : String :=
  match constant.toList.reverse.dropWhile fun character => !character.isUpper with
  | [] => constant
  | _ :: before => String.ofList before.reverse

/-- The identifier of an enumeration constant: the companion name, with the
type name in front unless the companion already begins with it. -/
def enumConstantName (typeName companion : String) : String :=
  if companion = "" then typeName
  else if typeName.toList.isPrefixOf companion.toList then companion
  else typeName ++ companion

def numbered (base : String) (number : Nat) : String :=
  base ++ toString number

/-- `base` itself when it is not taken, and otherwise `base` with the least
number from 2 on that is not taken. Among one more number than there are taken
names one is free, so the search is bounded. -/
def firstFree (taken : List String) (base : String) : String :=
  if base ∈ taken then
    (((List.range (taken.length + 1)).map fun step => numbered base (step + 2)).find?
      fun candidate => candidate ∉ taken).getD base
  else base

end SchemaCompiler.Naming
