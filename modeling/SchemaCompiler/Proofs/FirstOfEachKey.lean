import SchemaCompiler.Entries
import Mathlib.Data.List.Forall2

/-!
Contract: tables that are led by a list.

Owns:
- `eraseDups_concat`, how the list of distinct names grows at its end;
- `exists_find?_of_forall₂`, by which the first of its kind in one list is found
  in another one that is related item by item;
- `OrderedTable.Leads`, which says of a list of named items that a table has the
  keys of the items in order of first appearance and that each value is made
  from the first item of its key;
- the three ways in which the next item may reach such a table: it changes
  nothing, it replaces a value that is there, or it brings a new key.

Does not own: what items are and how values are made from them.
-/

namespace SchemaCompiler

/-- Appending what stands in a list already, or does not, to its first
occurrences. -/
theorem eraseDups_concat (names : List String) (name : String) :
    (names ++ [name]).eraseDups =
      if name ∈ names.eraseDups then names.eraseDups else names.eraseDups ++ [name] := by
  rw [List.eraseDups_append, List.removeAll]
  by_cases listed : name ∈ names
  · rw [List.filter_cons_of_neg (by simpa using listed), if_pos (List.mem_eraseDups.2 listed)]
    exact List.append_nil _
  · rw [List.filter_cons_of_pos (by simpa using listed),
      if_neg (fun member => listed (List.mem_eraseDups.1 member))]
    rfl

/-- Lists that are related item by item find related items first. -/
theorem exists_find?_of_forall₂ {α β : Type} {related : α → β → Prop} {left : List α}
    {right : List β} {asked : α → Bool} {wanted : β → Bool} {found : β}
    (paired : List.Forall₂ related left right)
    (same : ∀ item other, related item other → asked item = wanted other)
    (first : right.find? wanted = some found) :
    ∃ item, left.find? asked = some item ∧ related item found := by
  induction paired with
  | nil => cases first
  | @cons item other left right head _ inductionHypothesis =>
      rw [List.find?_cons, same item other head]
      rw [List.find?_cons] at first
      cases atHead : wanted other with
      | true =>
          rw [atHead] at first
          cases first
          exact ⟨item, rfl, head⟩
      | false =>
          rw [atHead] at first
          exact inductionHypothesis first

namespace OrderedTable

variable {Item α : Type} {name : Item → String} {made : Item → α → Prop} {seen : List Item}
  {table : OrderedTable α}

/-- The keys are the names of the items in order of first appearance, and every
value is made from the first item of its key. -/
structure Leads (name : Item → String) (made : Item → α → Prop) (seen : List Item)
    (table : OrderedTable α) : Prop where
  keys : table.keys = (seen.map name).eraseDups
  first : ∀ key value, table.find? key = some value →
    ∃ item, seen.find? (fun other => name other = key) = some item ∧ made item value

theorem leads_empty (name : Item → String) (made : Item → α → Prop) : Leads name made [] {} := by
  refine ⟨rfl, ?_⟩
  intro key value found
  cases found

theorem Leads.mem_keys_iff (leads : Leads name made seen table) {key : String} :
    key ∈ table.keys ↔ ∃ item ∈ seen, name item = key := by
  rw [leads.keys, List.mem_eraseDups, List.mem_map]

section Named

variable {nameOf : α → String}

/-- Values that carry the names of their items have the keys for names. -/
theorem Leads.names (leads : Leads name made seen table)
    (named : ∀ item value, made item value → nameOf value = name item) :
    table.values.map nameOf = (seen.map name).eraseDups := by
  rw [← leads.keys, OrderedTable.values, OrderedTable.keys, Entries.keys, List.map_map]
  refine List.map_congr_left fun entry member => ?_
  obtain ⟨item, atFirst, making⟩ :=
    leads.first _ _ (Entries.find?_eq_some_of_mem table.nodup member)
  exact (named item entry.2 making).trans (by simpa using List.find?_some atFirst)

/-- A value that carries the name of its item is made from the first item of that
name. -/
theorem Leads.exists_first (leads : Leads name made seen table)
    (named : ∀ item value, made item value → nameOf value = name item) {value : α}
    (member : value ∈ table.values) :
    ∃ item, seen.find? (fun other => name other = nameOf value) = some item ∧ made item value := by
  obtain ⟨key, stored⟩ := OrderedTable.exists_find?_of_mem_values member
  obtain ⟨item, atFirst, making⟩ := leads.first key value stored
  have own : name item = key := by simpa using List.find?_some atFirst
  rw [named item value making, own]
  exact ⟨item, atFirst, making⟩

end Named

/-- The first item of a name stays the first when a list grows. -/
private theorem Leads.first_concat (leads : Leads name made seen table) (item : Item) {key : String}
    {value : α} (found : table.find? key = some value) :
    ∃ first, (seen ++ [item]).find? (fun other => name other = key) = some first ∧
      made first value := by
  obtain ⟨first, atFirst, making⟩ := leads.first key value found
  exact ⟨first, by rw [List.find?_append, atFirst, Option.some_or], making⟩

/-- A further item of a key may leave the table as it is. -/
theorem Leads.known (leads : Leads name made seen table) (item : Item)
    (present : name item ∈ table.keys) : Leads name made (seen ++ [item]) table := by
  constructor
  · rw [List.map_append, List.map_singleton, eraseDups_concat, if_pos (leads.keys ▸ present),
      leads.keys]
  · exact fun key value found => leads.first_concat item found

/-- A further item of a key may replace its value by one that is made from the
same first item. -/
theorem Leads.replace (leads : Leads name made seen table) (item : Item) {old value : α}
    (stored : table.find? (name item) = some old)
    (same : ∀ first, name first = name item → made first old → made first value) :
    Leads name made (seen ++ [item]) (table.insert (name item) value) := by
  have present : name item ∈ table.keys := Entries.mem_keys_of_find? stored
  constructor
  · rw [OrderedTable.keys_insert, if_pos present]
    exact (leads.known item present).keys
  · intro key other found
    rw [OrderedTable.find?_insert] at found
    split at found
    · rename_i asked
      subst asked
      cases found
      obtain ⟨first, atFirst, making⟩ := leads.first_concat item stored
      exact ⟨first, atFirst, same first (by simpa using List.find?_some atFirst) making⟩
    · exact leads.first_concat item found

/-- The first item of a key gets a value that is made from it. -/
theorem Leads.fresh (leads : Leads name made seen table) (item : Item) {value : α}
    (absent : name item ∉ table.keys) (making : made item value) :
    Leads name made (seen ++ [item]) (table.insert (name item) value) := by
  have unseen : seen.find? (fun other => name other = name item) = none := by
    rw [List.find?_eq_none]
    intro other member same
    exact absent (leads.mem_keys_iff.2 ⟨other, member, of_decide_eq_true same⟩)
  constructor
  · rw [OrderedTable.keys_insert, if_neg absent, leads.keys, List.map_append, List.map_singleton,
      eraseDups_concat, if_neg (leads.keys ▸ absent)]
  · intro key other found
    rw [OrderedTable.find?_insert] at found
    split at found
    · rename_i asked
      subst asked
      cases found
      refine ⟨item, ?_, making⟩
      rw [List.find?_append, unseen, Option.none_or, List.find?_cons_of_pos (by simp)]
    · exact leads.first_concat item found

end OrderedTable

end SchemaCompiler
