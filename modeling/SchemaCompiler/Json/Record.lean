import SchemaCompiler.Json.Basic

/-!
Contract: records given by name or by position.

A record may be written as a mapping from field names, or as a sequence of its
leading fields in their declared order.

Owns:
- `Json.isRecord`, the shapes accepted for a record of a given width;
- `Json.member?`, one field of a record, with the size bound that recursion on
  decoded values rests on.

Does not own: which fields a record must have.
-/

namespace SchemaCompiler.Json

/-- True for mappings, and for sequences of at most `width` elements. -/
def isRecord (width : Nat) : Json → Bool
  | .object _ => true
  | .array items => items.length ≤ width
  | _ => false

/-- The field called `key`, which stands at `position` in a sequence. -/
def member? (record : Json) (key : String) (position : Nat) : Option Json :=
  match record with
  | .object entries => Entries.find? entries key
  | .array items => items[position]?
  | _ => none

theorem sizeOf_member?_lt {record value : Json} {key : String} {position : Nat}
    (found : record.member? key position = some value) : sizeOf value < sizeOf record := by
  cases record with
  | object entries =>
      have member := Entries.mem_of_find? (show Entries.find? entries key = some value from found)
      have bound := List.sizeOf_lt_of_mem member
      simp only [object.sizeOf_spec, Prod.mk.sizeOf_spec] at bound ⊢
      omega
  | array items =>
      have member := List.mem_of_getElem? (show items[position]? = some value from found)
      have bound := List.sizeOf_lt_of_mem member
      simp only [array.sizeOf_spec]
      omega
  | null => simp [member?] at found
  | bool flag => simp [member?] at found
  | number numeral => simp [member?] at found
  | string text => simp [member?] at found

theorem sizeOf_entries_lt {record : Json} {key : String} {position : Nat}
    {entries : List (String × Json)}
    (found : record.member? key position = some (.object entries)) :
    sizeOf entries < sizeOf record := by
  have bound := sizeOf_member?_lt found
  simp only [object.sizeOf_spec] at bound
  omega

theorem sizeOf_items_lt {record : Json} {key : String} {position : Nat}
    {items : List Json} (found : record.member? key position = some (.array items)) :
    sizeOf items < sizeOf record := by
  have bound := sizeOf_member?_lt found
  simp only [array.sizeOf_spec] at bound
  omega

end SchemaCompiler.Json
