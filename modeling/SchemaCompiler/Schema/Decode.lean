import SchemaCompiler.Schema.Basic
import SchemaCompiler.Json.Record
import SchemaCompiler.Json.Text

/-!
Contract: schemas read from dynamic values.

Owns:
- `Schema.ofJson?`, which reads a reference where it can and a node otherwise;
- `SchemaNode.ofJson`, the node of a record: every keyword is read on its own,
  and a value of the wrong shape, at any depth inside the keyword, leaves just
  that keyword empty.

Does not own: the frame of a whole document (`SchemaCompiler.Document`).
-/

namespace SchemaCompiler

/-- The reference a value stands for: a mapping whose `$ref` is text, or a
sequence of exactly one text. -/
def Reference.ofJson? : Json → Option Reference
  | .object entries => ((Entries.find? entries "$ref").bind Json.asString?).map Reference.mk
  | .array [.string pointer] => some ⟨pointer⟩
  | _ => none

namespace SchemaNode

def width : Nat := 13

/-- A type keyword, or the first one that a list holds. -/
def typeOf? : Json → Option Primitive
  | .string word => Primitive.ofKeyword? word
  | .array items => (items.filterMap Json.asString?).findSome? Primitive.ofKeyword?
  | _ => none

def textOf? (value : Json) : Option String :=
  if value.isScalar then some value.scalarText else none

/-- The texts of a list that holds nothing but strings. -/
def namesOf : Json → List String
  | .array items => (items.mapM Json.asString?).getD []
  | _ => []

def itemsOf : Json → List Json
  | .array items => items
  | _ => []

/-- A default value; null is none. -/
def defaultOf? (value : Json) : Option Json :=
  if value.isNull then none else some value

end SchemaNode

mutual

/-- The schema a value stands for: a reference where it can be read as one,
else a node; scalars and overlong sequences are no schemas. -/
def Schema.ofJson? (value : Json) : Option Schema :=
  match Reference.ofJson? value with
  | some target => some (.reference target)
  | none =>
      if value.isRecord SchemaNode.width then some (.inline (SchemaNode.ofJson value)) else none
termination_by (sizeOf value, 1)

/-- The node of a record, keyword by keyword. -/
def SchemaNode.ofJson (value : Json) : SchemaNode :=
  { type := (value.member? "type" 0).bind SchemaNode.typeOf?
    title := (value.member? "title" 1).bind SchemaNode.textOf?
    description := (value.member? "description" 2).bind SchemaNode.textOf?
    properties :=
      match found : value.member? "properties" 3 with
      | some (.object entries) =>
          have := Json.sizeOf_entries_lt found
          (Schema.ofEntries? entries).getD []
      | _ => []
    required := ((value.member? "required" 4).map SchemaNode.namesOf).getD []
    items :=
      match found : value.member? "items" 5 with
      | some (.array (first :: rest)) =>
          have : sizeOf first < sizeOf value := by
            have := Json.sizeOf_items_lt found
            simp only [List.cons.sizeOf_spec] at this
            omega
          Schema.ofJson? first
      | some (.object entries) =>
          have : 1 + sizeOf entries < sizeOf value := by
            simpa only [Json.object.sizeOf_spec] using Json.sizeOf_member?_lt found
          Schema.ofJson? (.object entries)
      | _ => none
    additionalProperties :=
      match found : value.member? "additionalProperties" 6 with
      | some (.bool allowed) => some (.freeForm allowed)
      | some policy =>
          have := Json.sizeOf_member?_lt found
          (Schema.ofJson? policy).map AdditionalProperties.schema
      | none => none
    enumValues := ((value.member? "enum" 7).map SchemaNode.itemsOf).getD []
    enumNames :=
      (((value.member? "x-enumNames" 8).map SchemaNode.itemsOf).getD []).map Json.scalarText
    default := (value.member? "default" 9).bind SchemaNode.defaultOf?
    allOf :=
      match found : value.member? "allOf" 10 with
      | some (.array items) =>
          have := Json.sizeOf_items_lt found
          (Schema.ofItems? items).getD []
      | _ => []
    anyOf :=
      match found : value.member? "anyOf" 11 with
      | some (.array items) =>
          have := Json.sizeOf_items_lt found
          (Schema.ofItems? items).getD []
      | _ => []
    oneOf :=
      match found : value.member? "oneOf" 12 with
      | some (.array items) =>
          have := Json.sizeOf_items_lt found
          (Schema.ofItems? items).getD []
      | _ => [] }
termination_by (sizeOf value, 0)

/-- The schemas of a list, when every element is one. -/
def Schema.ofItems? (items : List Json) : Option (List Schema) :=
  match items with
  | [] => some []
  | item :: rest =>
      match Schema.ofJson? item, Schema.ofItems? rest with
      | some schema, some schemas => some (schema :: schemas)
      | _, _ => none
termination_by (sizeOf items, 0)

/-- The schemas of a mapping, when every value is one. -/
def Schema.ofEntries? (entries : List (String × Json)) : Option (List (String × Schema)) :=
  match entries with
  | [] => some []
  | (name, value) :: rest =>
      match Schema.ofJson? value, Schema.ofEntries? rest with
      | some schema, some schemas => some ((name, schema) :: schemas)
      | _, _ => none
termination_by (sizeOf entries, 0)

end

end SchemaCompiler
