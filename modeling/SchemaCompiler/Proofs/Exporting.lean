import SchemaCompiler.Proofs.Naming
import SchemaCompiler.Proofs.Words

/-!
Contract: what exporting a name keeps of it.

Owns:
- `capitalized`, a run of letters and digits with its first character in upper case;
- `exportedFrom_eq_flatMap`: exporting puts the capitalized runs of a name together;
- `exportedChars_eq`: a lead stands before them exactly when the first letter or
  digit of the name is a digit;
- `exportedName_eq_empty_iff`: nothing is left of a name without letters and digits
  only;
- `exportedName_canonicalizes`, in which all this comes together: exporting is a
  canonical form, which the names of helper types have already.

Does not own: which names are taken in a given index.
-/

namespace SchemaCompiler.Naming

open Text (HasRuns)

variable {name others run rest : List Char} {runs : List (List Char)}

/-! ## Runs of letters and digits -/

/-- A run with its first character in upper case. -/
def capitalized : List Char → List Char
  | [] => []
  | first :: rest => first.toUpper :: rest

theorem exportedFrom_of_outside
    (outside : ∀ character ∈ others, character.isAlphanum = false) (rest : List Char) :
    exportedFrom true (others ++ rest) = exportedFrom true rest := by
  induction others with
  | nil => rfl
  | cons head tail inductionHypothesis =>
      obtain ⟨headOutside, tailOutside⟩ := List.forall_mem_cons.1 outside
      rw [List.cons_append, exportedFrom, if_neg (by simp [headOutside]),
        inductionHypothesis tailOutside]

theorem exportedFrom_of_inside (inside : ∀ character ∈ run, character.isAlphanum = true)
    (rest : List Char) : exportedFrom false (run ++ rest) = run ++ exportedFrom false rest := by
  induction run with
  | nil => rfl
  | cons head tail inductionHypothesis =>
      obtain ⟨headInside, tailInside⟩ := List.forall_mem_cons.1 inside
      rw [List.cons_append, exportedFrom, if_pos headInside, inductionHypothesis tailInside]
      rfl

/-- Behind the end of a run the next one begins. -/
theorem exportedFrom_of_ends
    (ends : ∀ character, rest.head? = some character → character.isAlphanum = false) :
    exportedFrom false rest = exportedFrom true rest := by
  cases rest with
  | nil => rfl
  | cons head tail =>
      have stop := ends head rfl
      rw [exportedFrom, exportedFrom, if_neg (by simp [stop]), if_neg (by simp [stop])]

theorem exportedFrom_eq_flatMap (has : HasRuns Char.isAlphanum name runs) :
    exportedFrom true name = runs.flatMap capitalized := by
  induction has with
  | @none others outside =>
      have nothing := exportedFrom_of_outside outside []
      rw [List.append_nil] at nothing
      exact nothing
  | @cons others run rest runs outside nonempty inside ends behind inductionHypothesis =>
      obtain ⟨head, tail, rfl⟩ := List.exists_cons_of_ne_nil nonempty
      obtain ⟨headInside, tailInside⟩ := List.forall_mem_cons.1 inside
      rw [exportedFrom_of_outside outside, List.cons_append, exportedFrom, if_pos headInside,
        if_pos rfl, exportedFrom_of_inside tailInside, exportedFrom_of_ends ends,
        inductionHypothesis, List.flatMap_cons]
      rfl

/-! ## The lead before a digit -/

/-- Upper case takes no digit away and makes none, checked code by code. -/
private theorem isDigit_toUpper_ascii : ∀ code < 128,
    (Char.ofNat code).toUpper.isDigit = (Char.ofNat code).isDigit := by
  decide

theorem isDigit_toUpper {character : Char} (alphanumeric : character.isAlphanum = true) :
    character.toUpper.isDigit = character.isDigit := by
  obtain ⟨code, ascii, rfl⟩ := exists_code (toNat_lt_of_isAlphanum alphanumeric)
  exact isDigit_toUpper_ascii code ascii

theorem exportedChars_eq (name : List Char) :
    exportedChars name =
      (if (name.find? Char.isAlphanum).any Char.isDigit then digitLead else []) ++
        exportedFrom true name := by
  have beginning := head?_exportedFrom name
  unfold exportedChars
  cases shape : exportedFrom true name with
  | nil =>
      rw [shape, List.head?_nil] at beginning
      rw [Option.map_eq_none_iff.1 beginning.symm]
      rfl
  | cons first rest =>
      rw [shape, List.head?_cons] at beginning
      obtain ⟨letter, found, upper⟩ := Option.map_eq_some_iff.1 beginning.symm
      rw [found, Option.any_some, ← isDigit_toUpper (List.find?_some found), upper]
      cases digit : first.isDigit with
      | true => simp [digit]
      | false => simp [digit]

theorem exportedChars_eq_nil_iff :
    exportedChars name = [] ↔ ∀ character ∈ name, character.isAlphanum = false := by
  have absent : exportedFrom true name = [] ↔ name.find? Char.isAlphanum = none := by
    rw [← List.head?_eq_none_iff, head?_exportedFrom, Option.map_eq_none_iff]
  have silent : name.find? Char.isAlphanum = none ↔
      ∀ character ∈ name, character.isAlphanum = false := by
    simp only [List.find?_eq_none, Bool.not_eq_true]
  rw [← silent, ← absent, exportedChars_eq, List.append_eq_nil_iff]
  constructor
  · exact And.right
  · intro nothing
    rw [absent.1 nothing]
    exact ⟨rfl, nothing⟩

theorem exportedName_eq_empty_iff {name : String} :
    exportedName name = "" ↔ ∀ character ∈ name.toList, character.isAlphanum = false := by
  rw [← exportedChars_eq_nil_iff, ← String.toList_eq_nil_iff, exportedName, String.toList_ofList]

/-! ## The canonical form -/

/-- Exporting is a canonical form of names. Nothing is left of a name exactly when it
has no letter or digit; anything else becomes a canonical name, made of the letters
and digits of the name with each run capitalized, behind a lead if the first of them
is a digit. An exported name is its own exported name, and so is the name of a helper
type, with or without a number behind it. -/
theorem exportedName_canonicalizes (name : String) :
    (exportedName name = "" ↔ ∀ character ∈ name.toList, character.isAlphanum = false) ∧
      (exportedName name ≠ "" → Canonical (exportedName name)) ∧
      (∃ runs, HasRuns Char.isAlphanum name.toList runs ∧
        runs.flatten = name.toList.filter Char.isAlphanum ∧
        (exportedName name).toList =
          (if (name.toList.find? Char.isAlphanum).any Char.isDigit then digitLead else []) ++
            runs.flatMap capitalized) ∧
      exportedName (exportedName name) = exportedName name ∧
      (exportedName name ≠ "" → ∀ property,
        exportedName (helperName name property) = helperName name property ∧
          ∀ digits : String, (∀ character ∈ digits.toList, character.isDigit = true) →
            exportedName (helperName name property ++ digits) =
              helperName name property ++ digits) := by
  refine ⟨exportedName_eq_empty_iff, canonical_exportedName, ?_, exportedName_exportedName name,
    ?_⟩
  · obtain ⟨runs, has⟩ := Text.exists_hasRuns Char.isAlphanum name.toList
    refine ⟨runs, has, has.flatten_eq, ?_⟩
    rw [exportedName, String.toList_ofList, exportedChars_eq, exportedFrom_eq_flatMap has]
  · intro named property
    have canonical := canonical_helperName named property
    refine ⟨canonical.exportedName_eq, ?_⟩
    intro digits onlyDigits
    have letters : ∀ character ∈ digits.toList, character.isAlphanum = true :=
      fun character member => isAlphanum_of_isDigit (onlyDigits character member)
    exact (canonical.append letters).exportedName_eq

/-- A name that begins with a digit, and a numbered helper type of it. -/
theorem exportedName_canonicalizes_code :
    exportedName "2fa--code" ≠ "" ∧ Canonical (exportedName "2fa--code") ∧
      (∀ character ∈ (toString 17).toList, character.isDigit = true) ∧
      exportedName (helperName "2fa--code" "boot-volume" ++ toString 17) =
        helperName "2fa--code" "boot-volume" ++ toString 17 := by
  have named : exportedName "2fa--code" ≠ "" := by decide +kernel
  have onlyDigits : ∀ character ∈ (toString 17).toList, character.isDigit = true :=
    fun _ => isDigit_of_mem_toString
  obtain ⟨-, canonical, -, -, helpers⟩ := exportedName_canonicalizes "2fa--code"
  exact ⟨named, canonical named, onlyDigits,
    (helpers named "boot-volume").2 (toString 17) onlyDigits⟩

end SchemaCompiler.Naming
