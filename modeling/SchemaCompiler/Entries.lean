/-!
Contract: text-keyed entries in order of first insertion.

Owns:
- `Entries`, the raw list of keyed values that schemas, mappings and helper
  tables are written as;
- insertion, which replaces the value of a key already present and leaves the
  key where it first stood, and truncation to the first entries;
- `OrderedTable`, entries whose keys are known to be pairwise distinct.

Does not own: any meaning of the keys.
-/

namespace SchemaCompiler

/-- Keyed values in a fixed order. -/
abbrev Entries (α : Type) := List (String × α)

namespace Entries

variable {α : Type}

def keys (entries : Entries α) : List String :=
  entries.map Prod.fst

/-- The value of the first entry carrying `key`. -/
def find? (entries : Entries α) (key : String) : Option α :=
  match entries with
  | [] => none
  | (name, value) :: rest => if name = key then some value else find? rest key

def has (entries : Entries α) (key : String) : Bool :=
  entries.any fun entry => entry.1 = key

/-- Gives `key` the value `value`: in place when the key is present, as the
last entry otherwise. -/
def insert (entries : Entries α) (key : String) (value : α) : Entries α :=
  match entries with
  | [] => [(key, value)]
  | (name, old) :: rest =>
      if name = key then (name, value) :: rest else (name, old) :: insert rest key value

/-- Inserts every pair in turn, so that the last value of a repeated key stays
at the key's first position. -/
def ofList (pairs : List (String × α)) : Entries α :=
  pairs.foldl (fun entries pair => insert entries pair.1 pair.2) []

theorem mem_keys_of_find? {entries : Entries α} {key : String} {value : α}
    (found : find? entries key = some value) : key ∈ keys entries := by
  induction entries with
  | nil => simp [find?] at found
  | cons head tail inductionHypothesis =>
      obtain ⟨name, old⟩ := head
      by_cases same : name = key
      · simp [keys, same]
      · simp only [find?, same, if_false] at found
        simp [keys, List.mem_map] at inductionHypothesis ⊢
        exact Or.inr (inductionHypothesis found)

theorem mem_of_find? {entries : Entries α} {key : String} {value : α}
    (found : find? entries key = some value) : (key, value) ∈ entries := by
  induction entries with
  | nil => simp [find?] at found
  | cons head tail inductionHypothesis =>
      obtain ⟨name, old⟩ := head
      by_cases same : name = key
      · simp only [find?, same, if_true, Option.some.injEq] at found
        simp [same, found]
      · simp only [find?, same, if_false] at found
        exact List.mem_cons_of_mem _ (inductionHypothesis found)

/-- With distinct keys an entry is what its key finds. -/
theorem find?_eq_some_of_mem {entries : Entries α} (distinct : (keys entries).Nodup)
    {key : String} {value : α} (member : (key, value) ∈ entries) :
    find? entries key = some value := by
  induction entries with
  | nil => cases member
  | cons head tail inductionHypothesis =>
      obtain ⟨name, old⟩ := head
      simp only [keys, List.map_cons, List.nodup_cons] at distinct
      rcases List.mem_cons.1 member with isHead | inTail
      · cases isHead
        simp [find?]
      · have other : name ≠ key := by
          intro same
          exact distinct.1 (same ▸ List.mem_map_of_mem (f := Prod.fst) inTail)
        simp only [find?, other, if_false]
        exact inductionHypothesis distinct.2 inTail

theorem find?_insert (entries : Entries α) (key other : String) (value : α) :
    find? (insert entries key value) other =
      if key = other then some value else find? entries other := by
  induction entries with
  | nil => simp [insert, find?]
  | cons head tail inductionHypothesis =>
      obtain ⟨name, old⟩ := head
      by_cases same : name = key
      · subst same
        by_cases asked : name = other <;> simp [insert, find?, asked]
      · by_cases asked : name = other
        · subst asked
          simp [insert, find?, same, Ne.symm same]
        · simp [insert, find?, same, asked, inductionHypothesis]

theorem keys_insert (entries : Entries α) (key : String) (value : α) :
    keys (insert entries key value) =
      if key ∈ keys entries then keys entries else keys entries ++ [key] := by
  induction entries with
  | nil => simp [insert, keys]
  | cons head tail inductionHypothesis =>
      obtain ⟨name, old⟩ := head
      by_cases same : name = key
      · simp [insert, keys, same]
      · simp only [keys] at inductionHypothesis
        simp only [insert, same, if_false, keys, List.map_cons, inductionHypothesis,
          List.mem_cons, Ne.symm same, false_or]
        split <;> simp_all

theorem nodup_keys_insert {entries : Entries α} (distinct : (keys entries).Nodup)
    (key : String) (value : α) : (keys (insert entries key value)).Nodup := by
  rw [keys_insert]
  split
  · exact distinct
  · rename_i absent
    rw [List.nodup_append]
    refine ⟨distinct, List.nodup_cons.2 ⟨by simp, List.nodup_nil⟩, ?_⟩
    intro left leftMember right rightMember same
    rw [List.mem_singleton] at rightMember
    exact absent (rightMember ▸ same ▸ leftMember)

theorem nodup_keys_take {entries : Entries α} (distinct : (keys entries).Nodup) (size : Nat) :
    (keys (entries.take size)).Nodup := by
  rw [keys, List.map_take]
  exact distinct.sublist (List.take_sublist size _)

theorem has_iff_mem_keys {entries : Entries α} {key : String} :
    has entries key = true ↔ key ∈ keys entries := by
  simp only [has, keys, List.any_eq_true, List.mem_map, decide_eq_true_eq]

theorem isSome_find? (entries : Entries α) (key : String) :
    (find? entries key).isSome = has entries key := by
  induction entries with
  | nil => rfl
  | cons head tail inductionHypothesis =>
      by_cases same : head.1 = key
      · simp [find?, has, same]
      · simpa [find?, has, same] using inductionHypothesis

theorem mem_insert {entries : Entries α} {key : String} {value : α} {entry : String × α}
    (member : entry ∈ insert entries key value) : entry = (key, value) ∨ entry ∈ entries := by
  induction entries with
  | nil => exact Or.inl (by simpa [insert] using member)
  | cons head tail inductionHypothesis =>
      obtain ⟨name, old⟩ := head
      by_cases same : name = key
      · simp only [insert, same, if_true, List.mem_cons] at member
        rcases member with replaced | kept
        · exact Or.inl replaced
        · exact Or.inr (List.mem_cons_of_mem _ kept)
      · simp only [insert, same, if_false, List.mem_cons] at member
        rcases member with isHead | inTail
        · exact Or.inr (by simp [isHead])
        · exact (inductionHypothesis inTail).imp_right (List.mem_cons_of_mem _)

/-- A key that is not present is added at the end. -/
theorem insert_of_not_mem {entries : Entries α} {key : String} (absent : key ∉ keys entries)
    (value : α) : insert entries key value = entries ++ [(key, value)] := by
  induction entries with
  | nil => rfl
  | cons head tail inductionHypothesis =>
      obtain ⟨name, old⟩ := head
      simp only [keys, List.map_cons, List.mem_cons, not_or] at absent
      simp only [insert, Ne.symm absent.1, if_false, List.cons_append, List.cons.injEq, true_and]
      exact inductionHypothesis absent.2

theorem nodup_keys_ofList (pairs : List (String × α)) : (keys (ofList pairs)).Nodup := by
  have grown (entries : Entries α) (distinct : (keys entries).Nodup) :
      (keys (pairs.foldl (fun entries pair => insert entries pair.1 pair.2) entries)).Nodup := by
    induction pairs generalizing entries with
    | nil => exact distinct
    | cons pair rest inductionHypothesis =>
        exact inductionHypothesis _ (nodup_keys_insert distinct pair.1 pair.2)
  exact grown [] List.nodup_nil

private theorem mem_of_mem_foldl {pairs : List (String × α)} {entries : Entries α}
    {entry : String × α}
    (member : entry ∈ pairs.foldl (fun entries pair => insert entries pair.1 pair.2) entries) :
    entry ∈ entries ∨ entry ∈ pairs := by
  induction pairs generalizing entries with
  | nil => exact Or.inl member
  | cons pair rest inductionHypothesis =>
      rcases inductionHypothesis member with inserted | inRest
      · rcases mem_insert inserted with rfl | old
        · exact Or.inr List.mem_cons_self
        · exact Or.inl old
      · exact Or.inr (List.mem_cons_of_mem _ inRest)

/-- Building entries brings in nothing but the pairs they are built of. -/
theorem mem_of_mem_ofList {pairs : List (String × α)} {entry : String × α}
    (member : entry ∈ ofList pairs) : entry ∈ pairs :=
  (mem_of_mem_foldl member).resolve_left List.not_mem_nil

end Entries

/-- Entries with pairwise distinct keys. -/
structure OrderedTable (α : Type) where
  entries : Entries α := []
  nodup : entries.keys.Nodup := by exact List.nodup_nil

namespace OrderedTable

variable {α : Type}

def empty : OrderedTable α := {}

/-- The keys in order of first insertion. -/
def keys (table : OrderedTable α) : List String := table.entries.keys

def values (table : OrderedTable α) : List α := table.entries.map Prod.snd

def size (table : OrderedTable α) : Nat := table.entries.length

def find? (table : OrderedTable α) (key : String) : Option α := table.entries.find? key

def has (table : OrderedTable α) (key : String) : Bool := table.entries.has key

/-- Stores `value` under `key`; a key already present keeps its position. -/
def insert (table : OrderedTable α) (key : String) (value : α) : OrderedTable α :=
  ⟨table.entries.insert key value, Entries.nodup_keys_insert table.nodup key value⟩

/-- Keeps the first `size` entries. -/
def truncate (table : OrderedTable α) (size : Nat) : OrderedTable α :=
  ⟨table.entries.take size, Entries.nodup_keys_take table.nodup size⟩

theorem find?_insert (table : OrderedTable α) (key other : String) (value : α) :
    (table.insert key value).find? other =
      if key = other then some value else table.find? other :=
  Entries.find?_insert table.entries key other value

theorem mem_values_insert {table : OrderedTable α} {key : String} {value other : α}
    (member : other ∈ (table.insert key value).values) : other = value ∨ other ∈ table.values := by
  obtain ⟨entry, inserted, rfl⟩ := List.mem_map.1 member
  rcases Entries.mem_insert inserted with same | old
  · exact Or.inl (by rw [same])
  · exact Or.inr (List.mem_map_of_mem old)

theorem mem_values_of_find? {table : OrderedTable α} {key : String} {value : α}
    (found : table.find? key = some value) : value ∈ table.values :=
  List.mem_map_of_mem (Entries.mem_of_find? found)

theorem not_mem_keys_of_find? {table : OrderedTable α} {key : String}
    (missing : table.find? key = none) : key ∉ table.keys := by
  intro present
  have found : (table.find? key).isSome = true :=
    (Entries.isSome_find? _ _).trans (Entries.has_iff_mem_keys.2 present)
  rw [missing] at found
  cases found

/-- A value of a table is found under some key. -/
theorem exists_find?_of_mem_values {table : OrderedTable α} {value : α}
    (member : value ∈ table.values) : ∃ key, table.find? key = some value := by
  obtain ⟨⟨key, stored⟩, inEntries, rfl⟩ := List.mem_map.1 member
  exact ⟨key, Entries.find?_eq_some_of_mem table.nodup inEntries⟩

theorem keys_insert (table : OrderedTable α) (key : String) (value : α) :
    (table.insert key value).keys =
      if key ∈ table.keys then table.keys else table.keys ++ [key] :=
  Entries.keys_insert table.entries key value

theorem mem_keys_insert {table : OrderedTable α} {key name : String} {value : α} :
    name ∈ (table.insert key value).keys ↔ name = key ∨ name ∈ table.keys := by
  rw [keys_insert]
  split
  · rename_i present
    constructor
    · exact Or.inr
    · rintro (rfl | old)
      · exact present
      · exact old
  · simp only [List.mem_append, List.mem_singleton]
    exact or_comm

end OrderedTable

end SchemaCompiler
