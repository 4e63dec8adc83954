import SchemaCompiler.Decimal.Binary64
import SchemaCompiler.Entries

/-!
Contract: dynamic values as schema documents hold them.

Owns:
- `Json`, whose mappings keep their written order, and its numbers, which keep
  integers apart from binary64 values;
- the projections and the scalar test that readers of documents need.

Does not own: any text form.
-/

namespace SchemaCompiler

namespace Json

/-- An integer of the signed or unsigned 64-bit range, or a binary64 value. -/
inductive Number where
  | integer (value : Int)
  | float (value : Binary64)
deriving DecidableEq, Repr

end Json

/-- A dynamic value. -/
inductive Json where
  | null
  | bool (value : Bool)
  | number (value : Json.Number)
  | string (text : String)
  | array (items : List Json)
  | object (entries : List (String × Json))
deriving Repr, Inhabited

namespace Json

def asString? : Json → Option String
  | .string text => some text
  | _ => none

def asBool? : Json → Option Bool
  | .bool value => some value
  | _ => none

def isScalar : Json → Bool
  | .string _ | .number _ | .bool _ => true
  | _ => false

def isNull : Json → Bool
  | .null => true
  | _ => false

/-- The value stored under `key` in a mapping. -/
def field? (value : Json) (key : String) : Option Json :=
  match value with
  | .object entries => Entries.find? entries key
  | _ => none

end Json

end SchemaCompiler
