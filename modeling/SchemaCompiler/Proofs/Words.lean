import SchemaCompiler.Text.Words

/-!
Contract: the words of a text, and the one-line form that keeps them.

Owns:
- `HasRuns`, a text as the maximal runs of the characters that a test keeps, with
  whatever else stands around them: every text has such runs (`exists_hasRuns`),
  and only one sequence of them (`HasRuns.unique`);
- `HasWords`, the runs of characters other than white space, which are what
  `words` gives (`hasWords_iff`);
- `SingleSpaced`, a text whose white space is single spaces between words: it is
  made of its words (`SingleSpaced.eq_joinWords`);
- `normalized?_eq_some_iff`: the one-line form of a text is the single-spaced text
  with its words, of which `normalized?_keeps_words` says all the parts.

Does not own: where descriptions come from.
-/

namespace SchemaCompiler.Text

/-! ## Runs of characters -/

/-- The runs are the maximal runs of kept characters of a text, in order. What
stands before a run is not kept, and neither is the character behind it. -/
inductive HasRuns (kept : Char → Bool) : List Char → List (List Char) → Prop where
  | none {others : List Char} (outside : ∀ character ∈ others, kept character = false) :
      HasRuns kept others []
  | cons {others run rest : List Char} {runs : List (List Char)}
      (outside : ∀ character ∈ others, kept character = false) (nonempty : run ≠ [])
      (inside : ∀ character ∈ run, kept character = true)
      (ends : ∀ character, rest.head? = some character → kept character = false)
      (behind : HasRuns kept rest runs) : HasRuns kept (others ++ (run ++ rest)) (run :: runs)

section

variable {kept : Char → Bool} {character : Char} {text run rest : List Char}
  {runs : List (List Char)}

/-- A text may begin with its first run. -/
theorem HasRuns.run_append (nonempty : run ≠ [])
    (inside : ∀ character ∈ run, kept character = true)
    (ends : ∀ character, rest.head? = some character → kept character = false)
    (behind : HasRuns kept rest runs) : HasRuns kept (run ++ rest) (run :: runs) := by
  have nothing : ∀ character ∈ ([] : List Char), kept character = false := by simp
  exact .cons nothing nonempty inside ends behind

theorem HasRuns.skip (outside : kept character = false) (has : HasRuns kept rest runs) :
    HasRuns kept (character :: rest) runs := by
  have before : ∀ {others : List Char}, (∀ other ∈ others, kept other = false) →
      ∀ other ∈ character :: others, kept other = false := by
    intro others outsiders
    exact List.forall_mem_cons.2 ⟨outside, outsiders⟩
  cases has with
  | none outsiders => exact .none (before outsiders)
  | cons outsiders nonempty inside ends behind =>
      exact .cons (before outsiders) nonempty inside ends behind

/-- A kept character extends the first run when it touches it, and is a run of its
own otherwise. -/
theorem HasRuns.consWord (keeps : kept character = true) (has : HasRuns kept rest runs) :
    HasRuns kept (character :: rest) (consWord character (rest.head?.any kept) runs) := by
  have single : ∀ other ∈ [character], kept other = true := by
    intro other member
    rw [List.mem_singleton.1 member]
    exact keeps
  cases touches : rest.head?.any kept with
  | false =>
      have ends : ∀ other, rest.head? = some other → kept other = false := by
        intro other first
        simpa [first] using touches
      exact .run_append (List.cons_ne_nil _ _) single ends has
  | true =>
      obtain ⟨next, first, nextKept⟩ := (Option.any_eq_true _ _).1 touches
      cases has with
      | none outside =>
          have refused := outside next (List.mem_of_mem_head? first)
          rw [nextKept] at refused
          cases refused
      | @cons others run tail runs outside nonempty inside ends behind =>
          cases others with
          | nil =>
              have longer : ∀ other ∈ character :: run, kept other = true :=
                List.forall_mem_cons.2 ⟨keeps, inside⟩
              exact .run_append (List.cons_ne_nil _ _) longer ends behind
          | cons head others =>
              have refused := outside head List.mem_cons_self
              obtain rfl : head = next := by simpa using first
              rw [nextKept] at refused
              cases refused

/-- Every text has its runs. -/
theorem exists_hasRuns (kept : Char → Bool) (text : List Char) :
    ∃ runs, HasRuns kept text runs := by
  induction text with
  | nil => exact ⟨[], .none (by simp)⟩
  | cons character rest inductionHypothesis =>
      obtain ⟨runs, has⟩ := inductionHypothesis
      cases keeps : kept character with
      | false => exact ⟨runs, has.skip keeps⟩
      | true => exact ⟨_, has.consWord keeps⟩

/-- A front that passes a test is cut off where the test fails. -/
private theorem takeWhile_front {test : Char → Bool} {front : List Char}
    (inside : ∀ other ∈ front, test other = true)
    (ends : ∀ other, rest.head? = some other → test other = false) :
    (front ++ rest).takeWhile test = front := by
  have stops : rest.takeWhile test = [] := by
    cases rest with
    | nil => rfl
    | cons first tail => simp [ends first rfl]
  rw [List.takeWhile_append_of_pos inside, stops, List.append_nil]

/-- What stands before a run is cut off by the opposite test. -/
private theorem takeWhile_others {others : List Char}
    (outside : ∀ other ∈ others, kept other = false) (nonempty : run ≠ [])
    (inside : ∀ other ∈ run, kept other = true) :
    (others ++ (run ++ rest)).takeWhile (fun character => !kept character) = others := by
  obtain ⟨head, tail, rfl⟩ := List.exists_cons_of_ne_nil nonempty
  apply takeWhile_front
  · intro other member
    rw [outside other member]
    rfl
  · rintro other ⟨⟩
    rw [inside head List.mem_cons_self]
    rfl

/-- A text with a run has a kept character. -/
private theorem not_outside {others : List Char} (nonempty : run ≠ [])
    (inside : ∀ other ∈ run, kept other = true) :
    ¬ ∀ other ∈ others ++ (run ++ rest), kept other = false := by
  obtain ⟨head, tail, rfl⟩ := List.exists_cons_of_ne_nil nonempty
  intro outside
  have refused := outside head (by simp)
  rw [inside head List.mem_cons_self] at refused
  cases refused

/-- A text has one sequence of runs. -/
theorem HasRuns.unique {other : List (List Char)} (has : HasRuns kept text runs)
    (hasOther : HasRuns kept text other) : runs = other := by
  induction has generalizing other with
  | none outside =>
      cases hasOther with
      | none => rfl
      | cons _ nonempty inside => exact absurd outside (not_outside nonempty inside)
  | @cons others run rest runs outside nonempty inside ends behind inductionHypothesis =>
      generalize whole : others ++ (run ++ rest) = text at hasOther
      cases hasOther with
      | none outsiders =>
          rw [← whole] at outsiders
          exact absurd outsiders (not_outside nonempty inside)
      | @cons others' run' rest' runs' outside' nonempty' inside' ends' behind' =>
          -- The three parts of the text agree one by one, from the left.
          have sameOthers : others = others' := by
            rw [← takeWhile_others outside nonempty inside, whole,
              takeWhile_others outside' nonempty' inside']
          rw [sameOthers] at whole
          have tails := List.append_cancel_left whole
          have sameRun : run = run' := by
            rw [← takeWhile_front inside ends, tails, takeWhile_front inside' ends']
          rw [sameRun] at tails
          have sameRest := List.append_cancel_left tails
          rw [sameRun, inductionHypothesis (sameRest ▸ behind')]

theorem hasRuns_nil_iff :
    HasRuns kept text [] ↔ ∀ character ∈ text, kept character = false := by
  constructor
  · intro has
    cases has with
    | none outside => exact outside
  · exact .none

/-- What is not kept may be left out at the beginning. -/
theorem HasRuns.of_cons (outside : kept character = false)
    (has : HasRuns kept (character :: rest) runs) : HasRuns kept rest runs := by
  obtain ⟨found, hasFound⟩ := exists_hasRuns kept rest
  rw [has.unique (hasFound.skip outside)]
  exact hasFound

theorem HasRuns.forall_run (has : HasRuns kept text runs) :
    ∀ run ∈ runs, run ≠ [] ∧ ∀ character ∈ run, kept character = true := by
  induction has with
  | none => simp
  | cons _ nonempty inside _ _ inductionHypothesis =>
      exact List.forall_mem_cons.2 ⟨⟨nonempty, inside⟩, inductionHypothesis⟩

/-- The runs hold the kept characters of the text, in order. -/
theorem HasRuns.flatten_eq (has : HasRuns kept text runs) : runs.flatten = text.filter kept := by
  induction has with
  | none outside => simpa using outside
  | @cons others run rest runs outside nonempty inside ends behind inductionHypothesis =>
      have dropped : others.filter kept = [] := by simpa using outside
      rw [List.flatten_cons, inductionHypothesis, List.filter_append, List.filter_append, dropped,
        List.filter_eq_self.2 inside, List.nil_append]

end

/-! ## Words -/

def isWordCharacter (character : Char) : Bool := !isWhiteSpace character

/-- The sequence holds the maximal words of the text, in order. -/
def HasWords (text : List Char) (sequence : List (List Char)) : Prop :=
  HasRuns isWordCharacter text sequence

variable {character : Char} {text line : List Char} {sequence : List (List Char)}

theorem isWordCharacter_eq_false_iff :
    isWordCharacter character = false ↔ isWhiteSpace character = true := by
  simp [isWordCharacter]

theorem isWordCharacter_eq_true_iff :
    isWordCharacter character = true ↔ isWhiteSpace character = false := by
  simp [isWordCharacter]

theorem hasWords_words (text : List Char) : HasWords text (words text) := by
  induction text with
  | nil => exact .none (by simp)
  | cons character rest inductionHypothesis =>
      cases white : isWhiteSpace character with
      | true =>
          have step : words (character :: rest) = words rest := by
            simp only [words, white, if_true]
          rw [step]
          exact inductionHypothesis.skip (isWordCharacter_eq_false_iff.2 white)
      | false =>
          have step : words (character :: rest) =
              consWord character (rest.head?.any isWordCharacter) (words rest) := by
            cases rest <;> simp [words, white, isWordCharacter]
          rw [step]
          exact inductionHypothesis.consWord (isWordCharacter_eq_true_iff.2 white)

theorem hasWords_iff : HasWords text sequence ↔ sequence = words text := by
  constructor
  · exact fun has => has.unique (hasWords_words text)
  · rintro rfl
    exact hasWords_words text

theorem words_eq_nil_iff :
    words text = [] ↔ ∀ character ∈ text, isWhiteSpace character = true := by
  rw [eq_comm, ← hasWords_iff, HasWords, hasRuns_nil_iff]
  simp only [isWordCharacter_eq_false_iff]

/-! ## Words parted by single spaces -/

/-- White space stands between two words only, and there it is one space. -/
def SingleSpaced (line : List Char) : Prop :=
  ∀ before character after, line = before ++ character :: after →
    isWhiteSpace character = true → character = ' ' ∧
      (∃ last, before.getLast? = some last ∧ isWhiteSpace last = false) ∧
      ∃ next, after.head? = some next ∧ isWhiteSpace next = false

theorem hasWords_joinWords
    (listed : ∀ word ∈ sequence, word ≠ [] ∧ ∀ character ∈ word, isWordCharacter character = true) :
    HasWords (joinWords sequence) sequence := by
  induction sequence with
  | nil => exact .none (by simp [joinWords])
  | cons word others inductionHypothesis =>
      obtain ⟨⟨nonempty, inside⟩, listedOthers⟩ := List.forall_mem_cons.1 listed
      have behind := inductionHypothesis listedOthers
      cases others with
      | nil =>
          have has : HasWords (word ++ []) [word] := .run_append nonempty inside (by simp) behind
          rw [List.append_nil] at has
          exact has
      | cons next others =>
          have space : isWordCharacter ' ' = false := by decide
          have ends : ∀ other, (' ' :: joinWords (next :: others)).head? = some other →
              isWordCharacter other = false := by
            rintro other ⟨⟩
            exact space
          exact .run_append nonempty inside ends (behind.skip space)

/-- A joined text begins with the first letter of its first word. -/
theorem head?_joinWords {word : List Char} {others : List (List Char)} (nonempty : word ≠ []) :
    (joinWords (word :: others)).head? = word.head? := by
  obtain ⟨head, tail, rfl⟩ := List.exists_cons_of_ne_nil nonempty
  cases others <;> simp [joinWords]

theorem SingleSpaced.of_forall (dark : ∀ character ∈ line, isWhiteSpace character = false) :
    SingleSpaced line := by
  intro before character after parts white
  rw [dark character (by simp [parts])] at white
  cases white

/-- A word and a space may be put in front of a line that begins with a word. -/
theorem SingleSpaced.word_append {word : List Char} {next : Char} (spaced : SingleSpaced line)
    (nonempty : word ≠ []) (dark : ∀ character ∈ word, isWhiteSpace character = false)
    (begins : line.head? = some next) (nextDark : isWhiteSpace next = false) :
    SingleSpaced (word ++ ' ' :: line) := by
  have ends : ∃ last, word.getLast? = some last ∧ isWhiteSpace last = false := by
    refine ⟨word.getLast nonempty, List.getLast?_eq_some_getLast nonempty, ?_⟩
    exact dark _ (List.getLast_mem nonempty)
  intro before character after parts white
  -- The white space lies within the word, is the space behind it, or lies beyond that.
  rcases List.append_eq_append_iff.1 parts with ⟨more, front, back⟩ | ⟨more, front, back⟩
  · cases more with
    | nil =>
        obtain ⟨isSpace, rfl⟩ := List.cons.inj back
        rw [List.append_nil] at front
        exact ⟨isSpace.symm, front ▸ ends, next, begins, nextDark⟩
    | cons space more =>
        obtain ⟨-, inLine⟩ := List.cons.inj back
        obtain ⟨isSpace, ⟨last, isLast, lastDark⟩, follows⟩ :=
          spaced more character after inLine white
        refine ⟨isSpace, ⟨last, ?_, lastDark⟩, follows⟩
        rw [front, List.getLast?_append, List.getLast?_cons, isLast]
        rfl
  · cases more with
    | nil =>
        obtain ⟨isSpace, rfl⟩ := List.cons.inj back
        rw [List.append_nil] at front
        exact ⟨isSpace, front ▸ ends, next, begins, nextDark⟩
    | cons letter more =>
        obtain ⟨isLetter, -⟩ := List.cons.inj back
        rw [isLetter, dark letter (by simp [front])] at white
        cases white

theorem singleSpaced_joinWords
    (listed : ∀ word ∈ sequence, word ≠ [] ∧ ∀ character ∈ word, isWordCharacter character = true) :
    SingleSpaced (joinWords sequence) := by
  induction sequence with
  | nil => exact .of_forall (by simp [joinWords])
  | cons word others inductionHypothesis =>
      obtain ⟨⟨nonempty, inside⟩, listedOthers⟩ := List.forall_mem_cons.1 listed
      have dark : ∀ character ∈ word, isWhiteSpace character = false :=
        fun character member => isWordCharacter_eq_true_iff.1 (inside character member)
      cases others with
      | nil =>
          rw [joinWords]
          exact .of_forall dark
      | cons next others =>
          obtain ⟨⟨nextNonempty, nextInside⟩, -⟩ := List.forall_mem_cons.1 listedOthers
          have begins : (joinWords (next :: others)).head? = some (next.head nextNonempty) := by
            rw [head?_joinWords nextNonempty, List.head?_eq_some_head]
          have letter := nextInside _ (List.head_mem nextNonempty)
          rw [joinWords]
          exact (inductionHypothesis listedOthers).word_append nonempty dark begins
            (isWordCharacter_eq_true_iff.1 letter)

/-- A single-spaced line does not begin with white space. -/
theorem SingleSpaced.gap_eq_nil {gap rest : List Char} (spaced : SingleSpaced (gap ++ rest))
    (outside : ∀ character ∈ gap, isWordCharacter character = false) : gap = [] := by
  cases gap with
  | nil => rfl
  | cons head gap =>
      have white := isWordCharacter_eq_false_iff.1 (outside head List.mem_cons_self)
      obtain ⟨-, ⟨last, isLast, -⟩, -⟩ := spaced [] head (gap ++ rest) rfl white
      cases isLast

/-- Behind a word and a space, a single-spaced line is single-spaced again. -/
theorem SingleSpaced.of_word_append {word : List Char}
    (spaced : SingleSpaced (word ++ ' ' :: line)) : SingleSpaced line := by
  intro before character after parts white
  obtain ⟨isSpace, ⟨last, isLast, lastDark⟩, follows⟩ :=
    spaced (word ++ ' ' :: before) character after (by simp [parts]) white
  refine ⟨isSpace, ⟨last, ?_, lastDark⟩, follows⟩
  -- The space itself is white, so something stands between it and the character.
  cases found : before.getLast? with
  | none =>
      rw [List.getLast?_append, List.getLast?_cons, found] at isLast
      obtain rfl : ' ' = last := by simpa using isLast
      cases lastDark
  | some letter =>
      rw [List.getLast?_append, List.getLast?_cons, found] at isLast
      simpa using isLast

/-- A single-spaced line is its words, joined. -/
theorem SingleSpaced.eq_joinWords (spaced : SingleSpaced line) (has : HasWords line sequence) :
    line = joinWords sequence := by
  induction sequence generalizing line with
  | nil =>
      have whole : SingleSpaced (line ++ []) := by
        rw [List.append_nil]
        exact spaced
      rw [whole.gap_eq_nil (hasRuns_nil_iff.1 has)]
      rfl
  | cons word others inductionHypothesis =>
      cases has with
      | @cons gap _ rest _ outside nonempty inside ends behind =>
          obtain rfl : gap = [] := SingleSpaced.gap_eq_nil spaced outside
          rw [List.nil_append] at spaced ⊢
          cases rest with
          | nil =>
              have alone : others = [] := behind.unique (.none (by simp))
              rw [alone, joinWords, List.append_nil]
          | cons space tail =>
              have white := isWordCharacter_eq_false_iff.1 (ends space rfl)
              obtain ⟨rfl, -, next, begins, nextDark⟩ := spaced word space tail rfl white
              have hasTail : HasWords tail others := behind.of_cons (ends ' ' rfl)
              have joined := inductionHypothesis spaced.of_word_append hasTail
              cases others with
              | nil =>
                  rw [joined] at begins
                  cases begins
              | cons second others => rw [joinWords, ← joined]

/-! ## The one-line form -/

theorem normalized?_eq_none_iff {text : String} :
    normalized? text = none ↔ ∀ character ∈ text.toList, isWhiteSpace character = true := by
  rw [← words_eq_nil_iff, normalized?]
  cases words text.toList <;> simp

theorem normalized?_eq_joinWords {text line : String} :
    normalized? text = some line ↔
      words text.toList ≠ [] ∧ line.toList = joinWords (words text.toList) := by
  unfold normalized?
  cases words text.toList with
  | nil => simp
  | cons word others =>
      rw [Option.some_inj, ← String.toList_inj, String.toList_ofList, eq_comm]
      simp

/-- The one-line form of a text is the single-spaced text with the same words, as
long as there are any. -/
theorem normalized?_eq_some_iff {text line : String} :
    normalized? text = some line ↔
      ∃ sequence ≠ [], HasWords text.toList sequence ∧ HasWords line.toList sequence ∧
        SingleSpaced line.toList := by
  rw [normalized?_eq_joinWords]
  constructor
  · rintro ⟨nonempty, joined⟩
    have has := hasWords_words text.toList
    refine ⟨words text.toList, nonempty, has, ?_, ?_⟩
    · rw [joined]
      exact hasWords_joinWords has.forall_run
    · rw [joined]
      exact singleSpaced_joinWords has.forall_run
  · rintro ⟨sequence, nonempty, inText, inLine, spaced⟩
    rw [← hasWords_iff.1 inText]
    exact ⟨nonempty, spaced.eq_joinWords inLine⟩

/-- A text has a one-line form unless it is white space throughout. The one-line
form has exactly the words of the text, with single spaces between them as its
only white space, and it is its own one-line form. -/
theorem normalized?_keeps_words (text : String) :
    (normalized? text = none ↔ ∀ character ∈ text.toList, isWhiteSpace character = true) ∧
      ∀ line, normalized? text = some line →
        (∃ sequence, ∀ other, (HasWords text.toList other ↔ other = sequence) ∧
          (HasWords line.toList other ↔ other = sequence)) ∧
        SingleSpaced line.toList ∧ normalized? line = some line := by
  refine ⟨normalized?_eq_none_iff, ?_⟩
  intro line normal
  obtain ⟨sequence, nonempty, inText, inLine, spaced⟩ := normalized?_eq_some_iff.1 normal
  refine ⟨⟨sequence, fun other => ⟨?_, ?_⟩⟩, spaced, ?_⟩
  · exact ⟨fun has => has.unique inText, fun same => same ▸ inText⟩
  · exact ⟨fun has => has.unique inLine, fun same => same ▸ inLine⟩
  · exact normalized?_eq_some_iff.2 ⟨sequence, nonempty, inLine, inLine, spaced⟩

/-- A description over two lines, with an em space in it. -/
def volumeText : String := " The \u2003boot\n\tvolume. "

theorem normalized?_keeps_words_volume :
    normalized? volumeText = some "The boot volume." ∧
      (∃ sequence, ∀ other, (HasWords volumeText.toList other ↔ other = sequence) ∧
        (HasWords "The boot volume.".toList other ↔ other = sequence)) ∧
      SingleSpaced "The boot volume.".toList ∧
        normalized? "The boot volume." = some "The boot volume." := by
  have normal : normalized? volumeText = some "The boot volume." := by decide +kernel
  exact ⟨normal, (normalized?_keeps_words volumeText).2 _ normal⟩

end SchemaCompiler.Text
