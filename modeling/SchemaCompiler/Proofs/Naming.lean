import SchemaCompiler.Naming
import Mathlib.Data.List.Nodup

/-!
Contract: identifiers that are canonical already, and numbered names.

Owns:
- `Canonical`, the names that begin in upper case and hold nothing but ASCII
  letters and digits. `exportedName` gives such a name or the empty one, and
  leaves such a name as it is;
- the ways of building a canonical name from another: appending an exported
  name or a number;
- `LeastFree`, what numbering makes of a name that may be taken:
  `leastFree_firstFree` says that the bounded search always finds it, and
  `LeastFree.eq_firstFree` that there is no other such name;
- `ExtendsByDigits`, names of which one is the other with digits behind it: no
  other names are made equal by numbering;
- `Canonical.eq_of_lowerCamel`: canonical names with one lower-case beginning are
  the same.

Does not own: which names an index reserves.
-/

namespace SchemaCompiler.Naming

/-! ## Characters -/

theorem isUpper_iff {character : Char} :
    character.isUpper = true ↔ 65 ≤ character.toNat ∧ character.toNat ≤ 90 := by
  change decide ('A'.val ≤ character.val ∧ character.val ≤ 'Z'.val) = true ↔ _
  rw [decide_eq_true_eq, UInt32.le_iff_toNat_le, UInt32.le_iff_toNat_le]
  rfl

theorem isLower_iff {character : Char} :
    character.isLower = true ↔ 97 ≤ character.toNat ∧ character.toNat ≤ 122 := by
  change (decide ('a'.val ≤ character.val) && decide (character.val ≤ 'z'.val)) = true ↔ _
  rw [Bool.and_eq_true, decide_eq_true_eq, decide_eq_true_eq, UInt32.le_iff_toNat_le,
    UInt32.le_iff_toNat_le]
  rfl

theorem isDigit_iff {character : Char} :
    character.isDigit = true ↔ 48 ≤ character.toNat ∧ character.toNat ≤ 57 := by
  change (decide ('0'.val ≤ character.val) && decide (character.val ≤ '9'.val)) = true ↔ _
  rw [Bool.and_eq_true, decide_eq_true_eq, decide_eq_true_eq, UInt32.le_iff_toNat_le,
    UInt32.le_iff_toNat_le]
  rfl

theorem isAlphanum_iff {character : Char} :
    character.isAlphanum = true ↔
      character.isUpper = true ∨ character.isLower = true ∨ character.isDigit = true := by
  change (character.isUpper || character.isLower || character.isDigit) = true ↔ _
  rw [Bool.or_eq_true, Bool.or_eq_true, or_assoc]

theorem toNat_lt_of_isAlphanum {character : Char}
    (alphanumeric : character.isAlphanum = true) : character.toNat < 128 := by
  rw [isAlphanum_iff, isUpper_iff, isLower_iff, isDigit_iff] at alphanumeric
  omega

theorem exists_code {character : Char} (ascii : character.toNat < 128) :
    ∃ code < 128, Char.ofNat code = character :=
  ⟨character.toNat, ascii, Char.ofNat_toNat character⟩

/-- The upper case of an ASCII letter or digit, checked code by code. -/
private theorem toUpper_ascii : ∀ code < 128, (Char.ofNat code).isAlphanum = true →
    ((Char.ofNat code).toUpper.isUpper = true ∨ (Char.ofNat code).toUpper.isDigit = true) := by
  decide

theorem isUpper_or_isDigit_toUpper {character : Char}
    (alphanumeric : character.isAlphanum = true) :
    character.toUpper.isUpper = true ∨ character.toUpper.isDigit = true := by
  obtain ⟨code, ascii, rfl⟩ := exists_code (toNat_lt_of_isAlphanum alphanumeric)
  exact toUpper_ascii code ascii alphanumeric

theorem isAlphanum_of_isUpper {character : Char} (upper : character.isUpper = true) :
    character.isAlphanum = true :=
  isAlphanum_iff.2 (Or.inl upper)

theorem isAlphanum_of_isDigit {character : Char} (digit : character.isDigit = true) :
    character.isAlphanum = true :=
  isAlphanum_iff.2 (Or.inr (Or.inr digit))

theorem isAlphanum_toUpper {character : Char} (alphanumeric : character.isAlphanum = true) :
    character.toUpper.isAlphanum = true := by
  rcases isUpper_or_isDigit_toUpper alphanumeric with upper | digit
  · exact isAlphanum_of_isUpper upper
  · exact isAlphanum_of_isDigit digit

theorem toUpper_of_isUpper {character : Char} (upper : character.isUpper = true) :
    character.toUpper = character := by
  unfold Char.toUpper
  rw [dif_neg]
  rintro ⟨fromLower, -⟩
  rw [UInt32.le_iff_toNat_le] at fromLower
  rw [isUpper_iff] at upper
  have value : character.toNat = character.val.toNat := rfl
  have firstLower : 'a'.val.toNat = 97 := rfl
  omega

/-! ## Canonical names -/

/-- A name that begins in upper case and holds nothing but ASCII letters and
digits. -/
def Canonical (name : String) : Prop :=
  ∃ first rest, name.toList = first :: rest ∧ first.isUpper = true ∧
    ∀ character ∈ rest, character.isAlphanum = true

theorem isAlphanum_of_mem_exportedFrom {starting : Bool} {name : List Char} {character : Char}
    (member : character ∈ exportedFrom starting name) : character.isAlphanum = true := by
  induction name generalizing starting with
  | nil => simp [exportedFrom] at member
  | cons head tail inductionHypothesis =>
      by_cases kept : head.isAlphanum = true
      · simp only [exportedFrom, kept, if_true, List.mem_cons] at member
        rcases member with isHead | inTail
        · subst character
          cases starting with
          | false => exact kept
          | true => exact isAlphanum_toUpper kept
        · exact inductionHypothesis inTail
      · simp only [exportedFrom, kept] at member
        exact inductionHypothesis member

theorem head?_exportedFrom (name : List Char) :
    (exportedFrom true name).head? = (name.find? Char.isAlphanum).map Char.toUpper := by
  induction name with
  | nil => rfl
  | cons head tail inductionHypothesis =>
      cases kept : head.isAlphanum with
      | true => simp [exportedFrom, kept]
      | false => simpa [exportedFrom, kept] using inductionHypothesis

theorem head_exportedFrom {name rest : List Char} {first : Char}
    (shape : exportedFrom true name = first :: rest) :
    first.isUpper = true ∨ first.isDigit = true := by
  have beginning := head?_exportedFrom name
  rw [shape, List.head?_cons] at beginning
  obtain ⟨letter, found, rfl⟩ := Option.map_eq_some_iff.1 beginning.symm
  exact isUpper_or_isDigit_toUpper (List.find?_some found)

theorem exportedFrom_of_isAlphanum {name : List Char}
    (kept : ∀ character ∈ name, character.isAlphanum = true) : exportedFrom false name = name := by
  induction name with
  | nil => rfl
  | cons head tail inductionHypothesis =>
      simp [exportedFrom, kept head (by simp),
        inductionHypothesis fun character member => kept character (by simp [member])]

theorem isAlphanum_of_mem_exportedName {name : String} {character : Char}
    (member : character ∈ (exportedName name).toList) : character.isAlphanum = true := by
  simp only [exportedName, String.toList_ofList, exportedChars] at member
  split at member
  · simp at member
  · rename_i first rest shape
    have kept : ∀ other ∈ first :: rest, other.isAlphanum = true := by
      rw [← shape]
      exact fun other inside => isAlphanum_of_mem_exportedFrom inside
    split at member
    · rcases List.mem_append.1 member with inLead | inName
      · have lead : ∀ other ∈ digitLead, other.isAlphanum = true := by simp [digitLead]
        exact lead character inLead
      · exact kept character inName
    · exact kept character member

/-- An exported name is canonical, unless the name has no letter or digit. -/
theorem canonical_exportedName {name : String} (named : exportedName name ≠ "") :
    Canonical (exportedName name) := by
  have letters : ∀ character ∈ exportedChars name.toList, character.isAlphanum = true := by
    intro character member
    exact isAlphanum_of_mem_exportedName (by simpa [exportedName] using member)
  have shape : (exportedName name).toList = exportedChars name.toList := by
    simp [exportedName]
  unfold exportedChars at letters shape
  split at shape
  · exact absurd (String.toList_eq_nil_iff.1 shape) named
  · rename_i first rest runs
    rw [runs] at letters
    split at shape
    · refine ⟨'F', _, shape, by decide, fun character member => ?_⟩
      rename_i digit
      simp only [digit, if_true] at letters
      exact letters character (List.mem_cons_of_mem _ member)
    · rename_i noDigit
      simp only [noDigit] at letters
      refine ⟨first, rest, shape, ?_, fun character member => letters character (by simp [member])⟩
      exact (head_exportedFrom runs).resolve_right noDigit

theorem Canonical.ne_empty {name : String} (canonical : Canonical name) : name ≠ "" := by
  rintro rfl
  obtain ⟨first, rest, shape, -, -⟩ := canonical
  simp at shape

/-- A canonical name is its own exported name. -/
theorem Canonical.exportedName_eq {name : String} (canonical : Canonical name) :
    exportedName name = name := by
  obtain ⟨first, rest, shape, upper, letters⟩ := canonical
  have noDigit : first.isDigit ≠ true := by
    intro digit
    rw [isUpper_iff] at upper
    rw [isDigit_iff] at digit
    omega
  have runs : exportedFrom true (first :: rest) = first :: rest := by
    simp [exportedFrom, isAlphanum_of_isUpper upper, toUpper_of_isUpper upper,
      exportedFrom_of_isAlphanum letters]
  apply String.toList_inj.1
  simp [exportedName, exportedChars, shape, runs, noDigit]

theorem exportedName_exportedName (name : String) :
    exportedName (exportedName name) = exportedName name := by
  by_cases named : exportedName name = ""
  · rw [named]
    decide
  · exact (canonical_exportedName named).exportedName_eq

theorem Canonical.append {name ending : String} (canonical : Canonical name)
    (letters : ∀ character ∈ ending.toList, character.isAlphanum = true) :
    Canonical (name ++ ending) := by
  obtain ⟨first, rest, shape, upper, inName⟩ := canonical
  refine ⟨first, rest ++ ending.toList, by simp [shape], upper, fun character member => ?_⟩
  rcases List.mem_append.1 member with inRest | inEnding
  · exact inName character inRest
  · exact letters character inEnding

theorem isDigit_of_mem_toString {number : Nat} {character : Char}
    (member : character ∈ (toString number).toList) : character.isDigit = true := by
  rw [Nat.toString_eq_repr, Nat.toList_repr] at member
  exact Nat.isDigit_of_mem_toDigits (by decide) (by decide) member

theorem isAlphanum_of_mem_toString {number : Nat} {character : Char}
    (member : character ∈ (toString number).toList) : character.isAlphanum = true :=
  isAlphanum_of_isDigit (isDigit_of_mem_toString member)

theorem Canonical.numbered {base : String} (canonical : Canonical base) (number : Nat) :
    Canonical (numbered base number) :=
  canonical.append fun _ => isAlphanum_of_mem_toString

/-- The name of a helper type is canonical when its parent's is not empty. -/
theorem canonical_helperName {parent : String} (named : exportedName parent ≠ "")
    (property : String) : Canonical (helperName parent property) :=
  (canonical_exportedName named).append fun _ => isAlphanum_of_mem_exportedName

/-! ## Lower-case beginnings -/

/-- An upper-case ASCII letter comes back from its lower case, checked code by
code. -/
private theorem toUpper_toLower_ascii : ∀ code < 128, (Char.ofNat code).isUpper = true →
    (Char.ofNat code).toLower.toUpper = Char.ofNat code := by
  decide

theorem toUpper_toLower {character : Char} (upper : character.isUpper = true) :
    character.toLower.toUpper = character := by
  obtain ⟨code, ascii, rfl⟩ := exists_code (toNat_lt_of_isAlphanum (isAlphanum_of_isUpper upper))
  exact toUpper_toLower_ascii code ascii upper

theorem toList_lowerCamel {name : String} {first : Char} {rest : List Char}
    (shape : name.toList = first :: rest) (upper : first.isUpper = true) :
    (lowerCamel name).toList = first.toLower :: rest := by
  have ascii := toNat_lt_of_isAlphanum (isAlphanum_of_isUpper upper)
  simp [lowerCamel, shape, Text.lowercase_of_lt ascii]

/-- Lower-casing the beginning keeps canonical names apart. -/
theorem Canonical.eq_of_lowerCamel {left right : String} (canonical : Canonical left)
    (other : Canonical right) (same : lowerCamel left = lowerCamel right) : left = right := by
  obtain ⟨first, rest, shape, upper, -⟩ := canonical
  obtain ⟨head, tail, otherShape, otherUpper, -⟩ := other
  have letters := congrArg String.toList same
  rw [toList_lowerCamel shape upper, toList_lowerCamel otherShape otherUpper] at letters
  obtain ⟨heads, tails⟩ := List.cons.inj letters
  have beginning : first = head := by
    rw [← toUpper_toLower upper, heads, toUpper_toLower otherUpper]
  rw [← String.toList_inj, shape, otherShape, beginning, tails]

/-! ## Free names -/

theorem numbered_injective {base : String} {left right : Nat}
    (same : numbered base left = numbered base right) : left = right := by
  have texts : base.toList ++ (toString left).toList = base.toList ++ (toString right).toList := by
    simpa [numbered] using congrArg String.toList same
  have digits : Nat.toDigits 10 left = Nat.toDigits 10 right := by
    simpa only [Nat.toString_eq_repr, Nat.toList_repr] using List.append_cancel_left texts
  rw [← Nat.ofDigitChars_ten_toDigits (n := left), digits, Nat.ofDigitChars_ten_toDigits]

/-- The numbered names that the search tries, in order. -/
private def candidates (taken : List String) (base : String) : List String :=
  (List.range (taken.length + 1)).map fun step => numbered base (step + 2)

/-- The candidates outnumber the taken names, so one of them is free. -/
private theorem exists_free_candidate (taken : List String) (base : String) :
    ∃ candidate ∈ candidates taken base, candidate ∉ taken := by
  by_contra none
  push Not at none
  have distinct : (candidates taken base).Nodup := by
    refine List.Nodup.map ?_ List.nodup_range
    intro left right same
    have numbers := numbered_injective same
    omega
  have bound := distinct.length_le_of_subset none
  simp only [candidates, List.length_map, List.length_range] at bound
  omega

private theorem find?_candidates {taken : List String} {base : String} (found : base ∈ taken) :
    ((candidates taken base).find? fun candidate => candidate ∉ taken) =
      some (firstFree taken base) := by
  obtain ⟨free, tried, fresh⟩ := exists_free_candidate taken base
  cases outcome : (candidates taken base).find? fun candidate => candidate ∉ taken with
  | none =>
      have occupied := List.find?_eq_none.1 outcome free tried
      exact absurd fresh (by simpa using occupied)
  | some candidate =>
      unfold candidates at outcome
      rw [firstFree, if_pos found, outcome, Option.getD_some]

/-- The name is the base itself when that is not taken, and otherwise the base with
the least number from 2 on that leaves a name not taken. -/
def LeastFree (taken : List String) (base name : String) : Prop :=
  (base ∉ taken ∧ name = base) ∨
    (base ∈ taken ∧ ∃ number, 2 ≤ number ∧ name = numbered base number ∧ name ∉ taken ∧
      ∀ smaller, 2 ≤ smaller → smaller < number → numbered base smaller ∈ taken)

theorem leastFree_firstFree (taken : List String) (base : String) :
    LeastFree taken base (firstFree taken base) := by
  by_cases found : base ∈ taken
  · have search := find?_candidates found
    unfold candidates at search
    rw [List.find?_map] at search
    obtain ⟨step, tried, result⟩ := Option.map_eq_some_iff.1 search
    obtain ⟨fresh, -, earlier⟩ := List.find?_range_eq_some.1 tried
    refine Or.inr ⟨found, step + 2, by omega, result.symm, ?_, ?_⟩
    · rw [← result]
      simpa using fresh
    · intro smaller atLeast below
      have occupied := earlier (smaller - 2) (by omega)
      have number : smaller - 2 + 2 = smaller := by omega
      simpa [number] using occupied
  · exact Or.inl ⟨found, by rw [firstFree, if_neg found]⟩

/-- There is one such name. -/
theorem LeastFree.eq_firstFree {taken : List String} {base name : String}
    (least : LeastFree taken base name) : name = firstFree taken base := by
  rcases least with ⟨absent, rfl⟩ | ⟨found, number, atLeast, rfl, fresh, below⟩
  · rw [firstFree, if_neg absent]
  · rcases leastFree_firstFree taken base with
      ⟨absent, -⟩ | ⟨-, other, otherAtLeast, result, otherFresh, otherBelow⟩
    · exact absurd found absent
    · rw [result] at otherFresh ⊢
      -- The smaller of two different numbers would leave a name that is taken.
      rcases Nat.lt_trichotomy number other with smaller | rfl | larger
      · exact absurd (otherBelow number atLeast smaller) fresh
      · rfl
      · exact absurd (below other otherAtLeast larger) otherFresh

theorem firstFree_eq {taken : List String} {base : String} (found : base ∈ taken) :
    ∃ number, firstFree taken base = numbered base number ∧ numbered base number ∉ taken := by
  rcases leastFree_firstFree taken base with ⟨absent, -⟩ | ⟨-, number, -, result, fresh, -⟩
  · exact absurd found absent
  · exact ⟨number, result, result ▸ fresh⟩

/-- A name found by the search is free. -/
theorem firstFree_not_mem (taken : List String) (base : String) : firstFree taken base ∉ taken := by
  rcases leastFree_firstFree taken base with ⟨absent, result⟩ | ⟨-, number, -, -, fresh, -⟩
  · rw [result]
    exact absent
  · exact fresh

/-- A longer search ends with the name that the bounded one finds. -/
private theorem find?_of_le {taken : List String} {base : String} (found : base ∈ taken)
    {bound : Nat} (large : taken.length + 1 ≤ bound) :
    (((List.range bound).map fun step => numbered base (step + 2)).find?
      fun candidate => candidate ∉ taken) = some (firstFree taken base) := by
  obtain ⟨more, rfl⟩ := Nat.exists_eq_add_of_le large
  have search := find?_candidates found
  unfold candidates at search
  rw [List.range_add, List.map_append, List.find?_append, search, Option.some_or]

/-- Which names are taken matters, and not in which order or how often. -/
theorem firstFree_congr {left right : List String}
    (same : ∀ name, name ∈ left ↔ name ∈ right) (base : String) :
    firstFree left base = firstFree right base := by
  by_cases found : base ∈ left
  · have bound : left.length + 1 ≤ left.length + right.length + 1 := by omega
    have otherBound : right.length + 1 ≤ left.length + right.length + 1 := by omega
    have tests : (fun candidate => decide (candidate ∉ left)) =
        fun candidate => decide (candidate ∉ right) := by
      funext candidate
      simp only [same candidate]
    have inLeft := find?_of_le found bound
    rw [tests, find?_of_le ((same base).1 found) otherBound] at inLeft
    exact (Option.some.inj inLeft).symm
  · rw [firstFree, firstFree, if_neg found, if_neg fun listed => found ((same base).2 listed)]

theorem Canonical.firstFree {base : String} (canonical : Canonical base) (taken : List String) :
    Canonical (firstFree taken base) := by
  by_cases found : base ∈ taken
  · obtain ⟨number, result, -⟩ := firstFree_eq found
    rw [result]
    exact canonical.numbered number
  · rw [Naming.firstFree, if_neg found]
    exact canonical

/-! ## Names with digits at the end -/

/-- The second name is the first one with at least one digit behind it. -/
def ExtendsByDigits (name longer : String) : Prop :=
  ∃ digits : String, digits ≠ "" ∧ (∀ character ∈ digits.toList, character.isDigit = true) ∧
    longer = name ++ digits

/-- The search puts nothing but digits behind a name. -/
theorem exists_digits_firstFree (taken : List String) (base : String) :
    ∃ digits : String, (∀ character ∈ digits.toList, character.isDigit = true) ∧
      firstFree taken base = base ++ digits := by
  by_cases found : base ∈ taken
  · obtain ⟨number, result, -⟩ := firstFree_eq found
    exact ⟨toString number, fun _ => isDigit_of_mem_toString, result⟩
  · exact ⟨"", by simp, by rw [firstFree, if_neg found, String.append_empty]⟩

/-- Names that digits make equal differ in digits at the end alone. -/
theorem extendsByDigits_of_append_eq {left right leftDigits rightDigits : String}
    (same : left ++ leftDigits = right ++ rightDigits)
    (leftOnly : ∀ character ∈ leftDigits.toList, character.isDigit = true)
    (rightOnly : ∀ character ∈ rightDigits.toList, character.isDigit = true)
    (different : left ≠ right) : ExtendsByDigits left right ∨ ExtendsByDigits right left := by
  -- The longer of the two is the shorter one with a part of the digits behind it.
  have beyond : ∀ {shorter longer digits : String} {more rest : List Char},
      (∀ character ∈ digits.toList, character.isDigit = true) → digits.toList = more ++ rest →
        longer.toList = shorter.toList ++ more → shorter ≠ longer →
          ExtendsByDigits shorter longer := by
    intro shorter longer digits more rest only parts extended apart
    have whole : longer = shorter ++ String.ofList more := by
      rw [← String.toList_inj, String.toList_append, String.toList_ofList, extended]
    refine ⟨String.ofList more, fun empty => apart ?_, fun character member => ?_, whole⟩
    · rw [whole, empty, String.append_empty]
    · rw [String.toList_ofList] at member
      exact only character (parts ▸ List.mem_append_left rest member)
  have letters := congrArg String.toList same
  rw [String.toList_append, String.toList_append] at letters
  rcases List.append_eq_append_iff.1 letters with ⟨more, extended, parts⟩ | ⟨more, extended, parts⟩
  · exact Or.inl (beyond leftOnly parts extended different)
  · exact Or.inr (beyond rightOnly parts extended (Ne.symm different))

end SchemaCompiler.Naming
