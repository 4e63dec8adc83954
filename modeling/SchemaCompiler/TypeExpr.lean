/-!
Contract: the types of generated fields, aliases and constants.

Owns:
- `TypeExpr`, kept structured while a model is built;
- the optional layer: adding, stripping and recognising it, including in type
  texts taken from a manifest;
- `TypeExpr.text`, the rendered form handed on, and `TypeExpr.namedLeaves`, the
  generated names a type mentions.

Does not own: how schemas are given types.
-/

namespace SchemaCompiler

/-- The type of a generated field, alias target or constant. -/
inductive TypeExpr where
  | string
  /-- A 64-bit integer. -/
  | integer
  /-- An integer of platform width, the base of integer enumerations. -/
  | int
  | float
  | boolean
  /-- A value of any type. -/
  | any
  | sequence (element : TypeExpr)
  /-- A mapping from text to values of one type. -/
  | map (value : TypeExpr)
  | optional (base : TypeExpr)
  /-- A generated type, by its canonical name. -/
  | named (name : String)
  /-- A type text taken as written from a manifest. -/
  | verbatim (text : String)
deriving DecidableEq, Repr, Inhabited

/-- True when `lead` begins the text. -/
def startsWith (text lead : String) : Bool :=
  lead.toList.isPrefixOf text.toList

/-- True when a type text written in a manifest denotes an optional type. -/
def isOptionalText (text : String) : Bool :=
  text.toList.contains '*' || startsWith text "Option<"

def withoutAsterisk (text : String) : String :=
  match text.toList with
  | '*' :: rest => String.ofList rest
  | _ => text

namespace TypeExpr

/-- Makes a type optional. Types that are optional already, sequences and maps
stay as they are, whether structured or written out. -/
def makeOptional : TypeExpr → TypeExpr
  | .optional base => .optional base
  | .sequence element => .sequence element
  | .map value => .map value
  | .verbatim text =>
      if isOptionalText text || startsWith text "[]" || startsWith text "map[" then
        .verbatim text
      else .optional (.verbatim text)
  | other => .optional other

/-- Removes one optional layer, if there is one. -/
def stripOptional : TypeExpr → TypeExpr
  | .optional base => base
  | .verbatim text => .verbatim (withoutAsterisk text)
  | other => other

/-- True when the outermost layer is optional. -/
def isOptional : TypeExpr → Bool
  | .optional _ => true
  | .verbatim text => isOptionalText text
  | _ => false

def text : TypeExpr → String
  | .string => "string"
  | .integer => "int64"
  | .int => "int"
  | .float => "float64"
  | .boolean => "bool"
  | .any => "any"
  | .sequence element => "[]" ++ element.text
  | .map value => "map[string]" ++ value.text
  | .optional base => "*" ++ base.text
  | .named name => name
  | .verbatim written => written

/-- The generated names a type mentions. A type mentions at most one. -/
def namedLeaves : TypeExpr → List String
  | .named name => [name]
  | .sequence element => element.namedLeaves
  | .map value => value.namedLeaves
  | .optional base => base.namedLeaves
  | _ => []

@[simp] theorem namedLeaves_makeOptional (type : TypeExpr) :
    type.makeOptional.namedLeaves = type.namedLeaves := by
  cases type with
  | verbatim text =>
      simp only [makeOptional]
      split <;> rfl
  | _ => rfl

@[simp] theorem namedLeaves_stripOptional (type : TypeExpr) :
    type.stripOptional.namedLeaves = type.namedLeaves := by
  cases type <;> rfl

end TypeExpr

end SchemaCompiler
