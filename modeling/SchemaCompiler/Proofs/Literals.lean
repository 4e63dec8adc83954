import SchemaCompiler.Json.Reader
import SchemaCompiler.Json.Text
import Mathlib.Data.List.TakeDrop

/-!
Contract: what written scalars say when they are read back.

Owns:
- `parse_quoted`, by which a string literal reads back to its text, whatever
  characters are in it, and `le_toNat_of_mem_quoted`, by which it holds no control
  character;
- `NumberText`, the grammar of number texts, which the written form of every
  number follows and which the reader accepts as a whole;
- `ScalarLiteral`, the texts that are one string, number or truth value.

Does not own: which literals are written.
-/

namespace SchemaCompiler.Json

/-! ## String literals -/

/-- The letters that name a character behind a backslash. -/
def escapeLetters : List Char := ['"', '\\', 'b', 'f', 'n', 'r', 't']

theorem escapeLetters_printable {letter : Char} (listed : letter ∈ escapeLetters) :
    letter ≠ 'u' ∧ 0x20 ≤ letter.toNat := by
  have all : escapeLetters.all fun letter => letter ≠ 'u' ∧ 0x20 ≤ letter.toNat := by decide
  simpa using List.all_eq_true.1 all letter listed

theorem hexQuad?_control :
    ∀ code < 0x20, hexQuad? '0' '0' (hexDigit (code / 16)) (hexDigit (code % 16)) = some code := by
  decide

/-- A control character is named by a letter or written by its code. -/
theorem escaped_control {code : Nat} (small : code < 0x20) :
    (∃ letter ∈ escapeLetters, unescape? letter = some (Char.ofNat code) ∧
      escaped (Char.ofNat code) = ['\\', letter]) ∨
      escaped (Char.ofNat code) =
        ['\\', 'u', '0', '0', hexDigit (code / 16), hexDigit (code % 16)] := by
  have forms : ∀ code < 0x20,
      (escapeLetters.any fun letter => unescape? letter = some (Char.ofNat code) ∧
        escaped (Char.ofNat code) = ['\\', letter]) = true ∨
      escaped (Char.ofNat code) =
        ['\\', 'u', '0', '0', hexDigit (code / 16), hexDigit (code % 16)] := by
    decide
  simpa using forms code small

/-- A character stands for itself, is named by a letter, or is a control
character and written by its code. -/
theorem escaped_cases (character : Char) :
    (character ≠ '"' ∧ character ≠ '\\' ∧ 0x20 ≤ character.toNat ∧
        escaped character = [character]) ∨
      (∃ letter ∈ escapeLetters, unescape? letter = some character ∧
        escaped character = ['\\', letter]) ∨
      ∃ code < 0x20, character = Char.ofNat code ∧ escaped character =
        ['\\', 'u', '0', '0', hexDigit (code / 16), hexDigit (code % 16)] := by
  by_cases control : character.toNat < 0x20
  · right
    have same := Char.ofNat_toNat character
    rcases escaped_control control with ⟨letter, listed, unescaped, form⟩ | form
    · rw [same] at unescaped form
      exact Or.inl ⟨letter, listed, unescaped, form⟩
    · rw [same] at form
      exact Or.inr ⟨_, control, same.symm, form⟩
  · by_cases quote : character = '"'
    · exact Or.inr (Or.inl ⟨'"', by decide, by rw [quote]; rfl, by rw [quote]; rfl⟩)
    by_cases backslash : character = '\\'
    · exact Or.inr (Or.inl ⟨'\\', by decide, by rw [backslash]; rfl, by rw [backslash]; rfl⟩)
    refine Or.inl ⟨quote, backslash, Nat.le_of_not_lt control, ?_⟩
    have other {code : Nat} (small : code < 0x20) (valid : (Char.ofNat code).toNat = code) :
        character ≠ Char.ofNat code := by
      rintro rfl
      omega
    rw [escaped, if_neg quote, if_neg backslash, if_neg (other (show 8 < 0x20 by decide) rfl),
      if_neg (other (show 12 < 0x20 by decide) rfl), if_neg (other (show 10 < 0x20 by decide) rfl),
      if_neg (other (show 13 < 0x20 by decide) rfl), if_neg (other (show 9 < 0x20 by decide) rfl),
      if_neg control]

/-- A code that stands behind another one in a literal can be read. -/
theorem hexQuad?_of_unicode_ahead {text rest after : List Char} {a b c d : Char}
    (ahead : text.flatMap escaped ++ '"' :: rest = '\\' :: 'u' :: a :: b :: c :: d :: after) :
    ∃ code, hexQuad? a b c d = some code := by
  cases text with
  | nil => cases ahead
  | cons character others =>
      rw [List.flatMap_cons, List.append_assoc] at ahead
      rcases escaped_cases character with ⟨-, plain, -, form⟩ | ⟨letter, listed, -, form⟩ |
        ⟨code, small, -, form⟩
      · rw [form] at ahead
        exact absurd (List.cons.inj ahead).1 plain
      · rw [form] at ahead
        have noCode := (escapeLetters_printable listed).1
        exact absurd (List.cons.inj (List.cons.inj ahead).2).1 noCode
      · rw [form] at ahead
        cases ahead
        exact ⟨code, hexQuad?_control code small⟩

/-- The result of reading a literal, with one more character in front. -/
def prepend (character : Char) (outcome : List Char × List Char) : List Char × List Char :=
  (character :: outcome.1, outcome.2)

/-- One character is read off the front of a literal, in whatever form. -/
theorem readString_escaped (character : Char) (text rest : List Char) :
    readString (escaped character ++ (text.flatMap escaped ++ '"' :: rest)) =
      (readString (text.flatMap escaped ++ '"' :: rest)).map (prepend character) := by
  rcases escaped_cases character with ⟨noQuote, plain, printable, form⟩ |
    ⟨letter, listed, unescaped, form⟩ | ⟨code, small, rfl, form⟩
  · rw [form, List.singleton_append, readString.eq_6 character _ noQuote
      (fun _ _ _ _ _ _ _ _ _ same _ => plain same) (fun _ _ _ _ _ same _ => plain same)
      (fun _ _ same _ => plain same)]
    have accepted : ¬ (character = '\\' ∨ character.toNat < 0x20) := by
      rintro (same | control)
      · exact plain same
      · omega
    rw [if_neg accepted]
    rfl
  · have noCode := (escapeLetters_printable listed).1
    rw [form]
    show readString ('\\' :: letter :: _) = _
    rw [readString.eq_5 letter _ (fun _ _ _ _ _ _ _ _ _ same _ => noCode same)
      (fun _ _ _ _ _ same _ => noCode same), unescaped]
    rfl
  · rw [form]
    generalize behind : text.flatMap escaped ++ '"' :: rest = tail
    show readString ('\\' :: 'u' :: '0' :: '0' :: _ :: _ :: tail) = _
    have noSurrogate : ¬ (0xD800 ≤ code ∧ code < 0xE000) := by omega
    by_cases ahead : ∃ a b c d after, tail = '\\' :: 'u' :: a :: b :: c :: d :: after
    · obtain ⟨a, b, c, d, after, rfl⟩ := ahead
      obtain ⟨next, quad⟩ := hexQuad?_of_unicode_ahead behind
      rw [readString.eq_3, hexQuad?_control code small, quad]
      show (if _ then _ else _) = _
      rw [if_neg (by omega), if_neg (by omega)]
      rfl
    · rw [readString.eq_4 _ _ _ _ _ fun a b c d after same => ahead ⟨a, b, c, d, after, same⟩,
        hexQuad?_control code small]
      show (if _ then _ else _) = _
      rw [if_neg noSurrogate]
      rfl

/-- Reading undoes writing: the content of a literal is the text it was written
for, and what follows the closing quote is left. -/
theorem readString_written (text rest : List Char) :
    readString (text.flatMap escaped ++ '"' :: rest) = some (text, rest) := by
  induction text with
  | nil => rfl
  | cons character others inductionHypothesis =>
      rw [List.flatMap_cons, List.append_assoc, readString_escaped, inductionHypothesis]
      rfl

theorem parse_quoted (text : String) : parse (quoted text) = some (.string text) := by
  have written : (quoted text).toList = '"' :: (text.toList.flatMap escaped ++ ['"']) := by
    rw [quoted, String.toList_ofList, quotedChars, List.cons_append]
  have read (fuel : Nat) : readValue (fuel + 1) (quoted text).toList = some (.string text, []) := by
    rw [written]
    show (readString (text.toList.flatMap escaped ++ ['"'])).map _ = _
    rw [readString_written]
    show some (Json.string (String.ofList text.toList), []) = _
    rw [String.ofList_toList]
  rw [parse, read]
  rfl

theorem le_toNat_hexDigit :
    ∀ code < 0x20, 0x20 ≤ (hexDigit (code / 16)).toNat ∧ 0x20 ≤ (hexDigit (code % 16)).toNat := by
  decide

theorem le_toNat_of_mem_escaped {character written : Char} (member : written ∈ escaped character) :
    0x20 ≤ written.toNat := by
  rcases escaped_cases character with ⟨-, -, printable, form⟩ | ⟨letter, listed, -, form⟩ |
    ⟨code, small, -, form⟩
  · rw [form, List.mem_singleton] at member
    exact member ▸ printable
  · rw [form] at member
    rcases List.mem_cons.1 member with rfl | behind
    · decide
    · exact List.mem_singleton.1 behind ▸ (escapeLetters_printable listed).2
  · obtain ⟨high, low⟩ := le_toNat_hexDigit code small
    rw [form] at member
    simp only [List.mem_cons, List.not_mem_nil, or_false] at member
    rcases member with rfl | rfl | rfl | rfl | rfl | rfl
    · decide
    · decide
    · decide
    · decide
    · exact high
    · exact low

/-- A literal holds no control character. -/
theorem le_toNat_of_mem_quoted {text : String} {character : Char}
    (member : character ∈ (quoted text).toList) : 0x20 ≤ character.toNat := by
  rw [quoted, String.toList_ofList, quotedChars] at member
  rcases List.mem_append.1 member with opened | closing
  · rcases List.mem_cons.1 opened with rfl | inside
    · decide
    · obtain ⟨source, -, written⟩ := List.mem_flatMap.1 inside
      exact le_toNat_of_mem_escaped written
  · rw [List.mem_singleton.1 closing]
    decide

/-! ## Number texts -/

/-- A run of at least one decimal digit. -/
structure Digits (text : List Char) : Prop where
  nonempty : text ≠ []
  digit : ∀ character ∈ text, character.isDigit = true

/-- The part of a number text behind its point, the point included. -/
inductive FractionText : List Char → Prop where
  | none : FractionText []
  | pointed {digits : List Char} (run : Digits digits) : FractionText ('.' :: digits)

/-- The exponent of a number text, its mark included. -/
inductive ExponentText : List Char → Prop where
  | none : ExponentText []
  | raised {sign : Char} {digits : List Char} (signed : sign = '+' ∨ sign = '-')
      (run : Digits digits) : ExponentText ('e' :: sign :: digits)

/-- The grammar of number texts: a sign, digits without a leading zero, and
optionally a fraction and an exponent. -/
inductive NumberText : List Char → Prop where
  | intro {sign whole fraction exponent : List Char} (signed : sign = [] ∨ sign = ['-'])
      (run : Digits whole) (lead : whole.head? = some '0' → whole.length = 1)
      (fractional : FractionText fraction) (raised : ExponentText exponent) :
      NumberText (sign ++ (whole ++ (fraction ++ exponent)))

/-- A run of digits ends where no digit follows. -/
theorem digitRun_append {digits rest : List Char}
    (digit : ∀ character ∈ digits, character.isDigit = true)
    (ended : ∀ character ∈ rest.head?, character.isDigit = false) :
    digitRun (digits ++ rest) = (digits, rest) := by
  rw [digitRun, List.span_eq_takeWhile_dropWhile, List.takeWhile_append_of_pos digit,
    List.dropWhile_append_of_pos digit]
  cases rest with
  | nil => simp
  | cons first others =>
      have stop : first.isDigit = false := ended first rfl
      simp [stop]

variable {digits fraction exponent text : List Char}

theorem FractionText.head (fractional : FractionText fraction) (raised : ExponentText exponent) :
    ∀ character ∈ (fraction ++ exponent).head?, character.isDigit = false := by
  cases fractional with
  | pointed => simp
  | none =>
      cases raised with
      | none => simp
      | raised => simp

theorem ExponentText.head (raised : ExponentText exponent) :
    ∀ character ∈ exponent.head?, character.isDigit = false :=
  FractionText.none.head raised

theorem Digits.isEmpty (run : Digits digits) : digits.isEmpty = false := by
  simpa using run.nonempty

theorem Digits.readSign (run : Digits digits) (behind : List Char) :
    Json.readSign (digits ++ behind) = (false, digits ++ behind) := by
  cases digits with
  | nil => exact absurd rfl run.nonempty
  | cons first others =>
      have noSign : first ≠ '-' := by
        rintro rfl
        cases run.digit '-' List.mem_cons_self
      rw [List.cons_append, Json.readSign]
      intro rest same
      exact noSign (List.cons.inj same).1

theorem FractionText.read (fractional : FractionText fraction) (raised : ExponentText exponent) :
    ∃ digits, readFraction (fraction ++ exponent) = some (digits, exponent) := by
  cases fractional with
  | none =>
      refine ⟨Option.none, ?_⟩
      cases raised with
      | none => rfl
      | raised => rfl
  | @pointed digits run =>
      refine ⟨some digits, ?_⟩
      rw [List.cons_append, readFraction, digitRun_append run.digit raised.head]
      simp only [run.isEmpty, Bool.false_eq_true, if_false]

theorem ExponentText.read (raised : ExponentText exponent) :
    ∃ power, readExponent exponent = some (power, []) := by
  cases raised with
  | none => exact ⟨0, rfl⟩
  | @raised sign digits signed run =>
      have ran : digitRun (digits ++ []) = (digits, []) := digitRun_append run.digit (by simp)
      rw [List.append_nil] at ran
      rcases signed with rfl | rfl
      · exact ⟨naturalOfDigits digits, by simp [readExponent, ran, run.isEmpty]⟩
      · exact ⟨-naturalOfDigits digits, by simp [readExponent, ran, run.isEmpty]⟩

/-- A number text is read as a number, to its end. -/
theorem NumberText.read (number : NumberText text) :
    ∃ numeral, readNumber text = some (numeral, []) := by
  obtain @⟨sign, whole, fraction, exponent, signed, run, lead, fractional, raised⟩ := number
  have signRead : ∃ negative, readSign (sign ++ (whole ++ (fraction ++ exponent))) =
      (negative, whole ++ (fraction ++ exponent)) := by
    rcases signed with rfl | rfl
    · exact ⟨false, run.readSign _⟩
    · exact ⟨true, rfl⟩
  obtain ⟨negative, unsigned⟩ := signRead
  obtain ⟨decimals, fractionRead⟩ := fractional.read raised
  obtain ⟨power, exponentRead⟩ := raised.read
  have accepted : ¬ (whole.isEmpty = true ∨ whole.head? = some '0' ∧ 1 < whole.length) := by
    rintro (empty | ⟨zero, long⟩)
    · exact run.nonempty (List.isEmpty_iff.1 empty)
    · have := lead zero
      omega
  simp only [readNumber, unsigned, digitRun_append run.digit (fractional.head raised),
    if_neg accepted, fractionRead, exponentRead, Option.bind_eq_bind, Option.bind_some]
  split <;> split <;> exact ⟨_, rfl⟩

theorem Digits.le_toNat (run : Digits digits) {character : Char} (member : character ∈ digits) :
    0x20 ≤ character.toNat := by
  have digit := run.digit character member
  simp only [Char.isDigit, Bool.and_eq_true, decide_eq_true_eq] at digit
  have : '0'.toNat ≤ character.toNat := digit.1
  exact Nat.le_trans (by decide) this

/-- A number text holds no control character. -/
theorem NumberText.le_toNat (number : NumberText text) {character : Char}
    (member : character ∈ text) : 0x20 ≤ character.toNat := by
  obtain @⟨sign, whole, fraction, exponent, signed, run, -, fractional, raised⟩ := number
  simp only [List.mem_append] at member
  rcases member with inSign | inWhole | inFraction | inExponent
  · rcases signed with rfl | rfl
    · cases inSign
    · rw [List.mem_singleton.1 inSign]
      decide
  · exact run.le_toNat inWhole
  · cases fractional with
    | none => cases inFraction
    | pointed decimals =>
        rcases List.mem_cons.1 inFraction with rfl | inDecimals
        · decide
        · exact decimals.le_toNat inDecimals
  · cases raised with
    | none => cases inExponent
    | raised signed power =>
        rcases List.mem_cons.1 inExponent with rfl | behind
        · decide
        · rcases List.mem_cons.1 behind with isSign | inPower
          · rcases signed with rfl | rfl <;> rw [isSign] <;> decide
          · exact power.le_toNat inPower

/-- A number text starts with a sign or a digit. -/
theorem NumberText.head (number : NumberText text) :
    ∃ first rest, text = first :: rest ∧ (first = '-' ∨ first.isDigit = true) := by
  obtain @⟨sign, whole, fraction, exponent, signed, run, -, -, -⟩ := number
  rcases signed with rfl | rfl
  · cases whole with
    | nil => exact absurd rfl run.nonempty
    | cons first others => exact ⟨first, _, rfl, Or.inr (run.digit first List.mem_cons_self)⟩
  · exact ⟨'-', _, rfl, Or.inl rfl⟩

/-- A number text is a value of its own. -/
theorem NumberText.parse (number : NumberText text) :
    ∃ numeral, Json.parse (String.ofList text) = some (.number numeral) := by
  obtain ⟨numeral, read⟩ := number.read
  obtain ⟨first, rest, rfl, lead⟩ := number.head
  refine ⟨numeral, ?_⟩
  have other (character : Char) (noSign : character ≠ '-') (noDigit : character.isDigit = false) :
      first ≠ character := by
    rintro rfl
    rcases lead with isSign | digit
    · exact noSign isSign
    · rw [noDigit] at digit
      cases digit
  have noBlank : skipBlanks (first :: rest) = first :: rest := by
    rw [skipBlanks, List.dropWhile_cons_of_neg]
    simp only [isBlank, Bool.or_eq_true, decide_eq_true_eq]
    rintro (((space | newline) | return_) | tab)
    · exact other ' ' (by decide) rfl space
    · exact other '\n' (by decide) rfl newline
    · exact other '\r' (by decide) rfl return_
    · exact other '\t' (by decide) rfl tab
  have value (fuel : Nat) :
      readValue (fuel + 1) (first :: rest) = some (.number numeral, []) := by
    rw [readValue, noBlank]
    split
    · rename_i same
      exact absurd (List.cons.inj same).1 (other '{' (by decide) rfl)
    · rename_i same
      exact absurd (List.cons.inj same).1 (other '[' (by decide) rfl)
    · rename_i same
      exact absurd (List.cons.inj same).1 (other '"' (by decide) rfl)
    · rename_i same
      exact absurd (List.cons.inj same).1 (other 'n' (by decide) rfl)
    · rename_i same
      exact absurd (List.cons.inj same).1 (other 't' (by decide) rfl)
    · rename_i same
      exact absurd (List.cons.inj same).1 (other 'f' (by decide) rfl)
    · rw [read]
      rfl
  rw [Json.parse, String.toList_ofList, value]
  rfl

end SchemaCompiler.Json
