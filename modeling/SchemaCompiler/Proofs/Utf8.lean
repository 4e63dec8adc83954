import SchemaCompiler.Text.Utf8

/-!
Contract: UTF-8 read back.

Owns:
- `leadingCharacter_utf8EncodeChar`, by which the bytes of a character are read as
  that character, whatever stands behind them;
- `decodeLossy_utf8Bytes`: the bytes of a text read back to the text;
- `toNat_of_mem_utf8EncodeChar`, by which a byte below 0x80 is the code of its
  character.

Does not own: what malformed bytes are read as.
-/

namespace SchemaCompiler.Text

/-- The code of a character is no surrogate. -/
theorem scalar_toNat (character : Char) :
    character.toNat < 0xD800 ∨ 0xDFFF < character.toNat ∧ character.toNat < 0x110000 :=
  character.valid

/-! ## One character -/

variable {code : Nat}

theorem leadingCharacter_one (small : code < 0x80) (rest : List UInt8) :
    leadingCharacter (UInt8.ofNat code) rest = (some (Char.ofNat code), 0) := by
  have lead : (UInt8.ofNat code).toNat = code := by
    rw [UInt8.toNat_ofNat']
    omega
  simp only [leadingCharacter, lead, small, if_true]

theorem isContinuation_payload (code : Nat) :
    isContinuation (UInt8.ofNat (code % 0x40 + 0x80)) = true := by
  simp only [isContinuation, UInt8.toNat_ofNat', Bool.and_eq_true, decide_eq_true_eq]
  omega

theorem payload_ofNat (code : Nat) : payload (UInt8.ofNat (code % 0x40 + 0x80)) = code % 0x40 := by
  rw [payload, UInt8.toNat_ofNat']
  omega

theorem leadingCharacter_two (large : 0x80 ≤ code) (small : code < 0x800) (rest : List UInt8) :
    leadingCharacter (UInt8.ofNat (code / 0x40 % 0x20 + 0xC0))
        (UInt8.ofNat (code % 0x40 + 0x80) :: rest) = (some (Char.ofNat code), 1) := by
  have lead : (UInt8.ofNat (code / 0x40 % 0x20 + 0xC0)).toNat = code / 0x40 + 0xC0 := by
    rw [UInt8.toNat_ofNat']
    omega
  have joined : (code / 0x40 + 0xC0) % 0x20 * 0x40 + code % 0x40 = code := by omega
  simp only [leadingCharacter, lead, isContinuation_payload, payload_ofNat, if_true, joined]
  rw [if_neg (by omega), if_pos (by omega)]

theorem leadingCharacter_three (large : 0x800 ≤ code) (small : code < 0x10000)
    (scalar : code < 0xD800 ∨ 0xDFFF < code) (rest : List UInt8) :
    leadingCharacter (UInt8.ofNat (code / 0x1000 % 0x10 + 0xE0))
        (UInt8.ofNat (code / 0x40 % 0x40 + 0x80) :: UInt8.ofNat (code % 0x40 + 0x80) :: rest) =
      (some (Char.ofNat code), 2) := by
  have lead : (UInt8.ofNat (code / 0x1000 % 0x10 + 0xE0)).toNat = code / 0x1000 + 0xE0 := by
    rw [UInt8.toNat_ofNat']
    omega
  have second : (UInt8.ofNat (code / 0x40 % 0x40 + 0x80)).toNat = code / 0x40 % 0x40 + 0x80 := by
    rw [UInt8.toNat_ofNat']
    omega
  have admitted : secondOfThree (UInt8.ofNat (code / 0x1000 % 0x10 + 0xE0))
      (UInt8.ofNat (code / 0x40 % 0x40 + 0x80)) = true := by
    simp only [secondOfThree, isContinuation, lead, second]
    split
    · simp; omega
    · split <;> simp <;> omega
  have joined : ((code / 0x1000 + 0xE0) % 0x10 * 0x40 + code / 0x40 % 0x40) * 0x40 +
      code % 0x40 = code := by omega
  simp only [leadingCharacter, lead, admitted, isContinuation_payload, payload_ofNat, Bool.not_true,
    joined]
  rw [if_neg (by omega), if_neg (by omega), if_pos (by omega)]
  simp

theorem leadingCharacter_four (large : 0x10000 ≤ code) (small : code < 0x110000)
    (rest : List UInt8) :
    leadingCharacter (UInt8.ofNat (code / 0x40000 % 0x08 + 0xF0))
        (UInt8.ofNat (code / 0x1000 % 0x40 + 0x80) :: UInt8.ofNat (code / 0x40 % 0x40 + 0x80) ::
          UInt8.ofNat (code % 0x40 + 0x80) :: rest) =
      (some (Char.ofNat code), 3) := by
  have lead : (UInt8.ofNat (code / 0x40000 % 0x08 + 0xF0)).toNat = code / 0x40000 + 0xF0 := by
    rw [UInt8.toNat_ofNat']
    omega
  have second :
      (UInt8.ofNat (code / 0x1000 % 0x40 + 0x80)).toNat = code / 0x1000 % 0x40 + 0x80 := by
    rw [UInt8.toNat_ofNat']
    omega
  have admitted : secondOfFour (UInt8.ofNat (code / 0x40000 % 0x08 + 0xF0))
      (UInt8.ofNat (code / 0x1000 % 0x40 + 0x80)) = true := by
    simp only [secondOfFour, isContinuation, lead, second]
    split
    · simp; omega
    · split <;> simp <;> omega
  have joined : (((code / 0x40000 + 0xF0) % 0x08 * 0x40 + code / 0x1000 % 0x40) * 0x40 +
      code / 0x40 % 0x40) * 0x40 + code % 0x40 = code := by omega
  simp only [leadingCharacter, lead, admitted, isContinuation_payload, payload_ofNat, Bool.not_true,
    joined]
  rw [if_neg (by omega), if_neg (by omega), if_neg (by omega), if_pos (by omega)]
  simp

/-- A character has one byte, or two, three or four, by the size of its code. -/
theorem utf8EncodeChar_cases (character : Char) :
    (character.toNat < 0x80 ∧
        String.utf8EncodeChar character = [UInt8.ofNat character.toNat]) ∨
      (0x80 ≤ character.toNat ∧ character.toNat < 0x800 ∧ String.utf8EncodeChar character =
        [UInt8.ofNat (character.toNat / 0x40 % 0x20 + 0xC0),
          UInt8.ofNat (character.toNat % 0x40 + 0x80)]) ∨
      (0x800 ≤ character.toNat ∧ character.toNat < 0x10000 ∧ String.utf8EncodeChar character =
        [UInt8.ofNat (character.toNat / 0x1000 % 0x10 + 0xE0),
          UInt8.ofNat (character.toNat / 0x40 % 0x40 + 0x80),
          UInt8.ofNat (character.toNat % 0x40 + 0x80)]) ∨
      0x10000 ≤ character.toNat ∧ String.utf8EncodeChar character =
        [UInt8.ofNat (character.toNat / 0x40000 % 0x08 + 0xF0),
          UInt8.ofNat (character.toNat / 0x1000 % 0x40 + 0x80),
          UInt8.ofNat (character.toNat / 0x40 % 0x40 + 0x80),
          UInt8.ofNat (character.toNat % 0x40 + 0x80)] := by
  have code : character.val.toNat = character.toNat := rfl
  simp only [String.utf8EncodeChar, code]
  by_cases one : character.toNat ≤ 0x7F
  · rw [if_pos one]
    exact Or.inl ⟨by omega, rfl⟩
  by_cases two : character.toNat ≤ 0x7FF
  · rw [if_neg one, if_pos two]
    exact Or.inr (Or.inl ⟨by omega, by omega, rfl⟩)
  by_cases three : character.toNat ≤ 0xFFFF
  · rw [if_neg one, if_neg two, if_pos three]
    exact Or.inr (Or.inr (Or.inl ⟨by omega, by omega, rfl⟩))
  · rw [if_neg one, if_neg two, if_neg three]
    exact Or.inr (Or.inr (Or.inr ⟨by omega, rfl⟩))

/-- The bytes of a character are read as the character, and all of them are taken
up. -/
theorem leadingCharacter_utf8EncodeChar (character : Char) :
    ∃ lead tail, String.utf8EncodeChar character = lead :: tail ∧
      ∀ rest, leadingCharacter lead (tail ++ rest) = (some character, tail.length) := by
  have scalar := scalar_toNat character
  have own : Char.ofNat character.toNat = character := Char.ofNat_toNat character
  rcases utf8EncodeChar_cases character with ⟨small, bytes⟩ | ⟨large, small, bytes⟩ |
    ⟨large, small, bytes⟩ | ⟨large, bytes⟩
  · refine ⟨_, [], bytes, fun rest => ?_⟩
    rw [List.nil_append, leadingCharacter_one small, own, List.length_nil]
  · refine ⟨_, [_], bytes, fun rest => ?_⟩
    rw [List.singleton_append, leadingCharacter_two large small, own, List.length_singleton]
  · refine ⟨_, [_, _], bytes, fun rest => ?_⟩
    have read := leadingCharacter_three large small (by omega) rest
    rw [own] at read
    exact read
  · refine ⟨_, [_, _, _], bytes, fun rest => ?_⟩
    have read := leadingCharacter_four large (by omega) rest
    rw [own] at read
    exact read

/-- The bytes of a larger character are all larger than those of a smaller one. -/
theorem le_toNat_of_mem_utf8EncodeChar {character : Char} (large : 0x80 ≤ character.toNat) :
    ∀ byte ∈ String.utf8EncodeChar character, 0x80 ≤ byte.toNat := by
  rcases utf8EncodeChar_cases character with ⟨small, -⟩ | ⟨-, -, bytes⟩ | ⟨-, -, bytes⟩ |
    ⟨-, bytes⟩
  · omega
  all_goals
    simp only [bytes, List.forall_mem_cons, List.not_mem_nil, false_implies, implies_true,
      and_true, UInt8.toNat_ofNat']
    omega

/-- A byte below 0x80 is all there is of a character. -/
theorem toNat_of_mem_utf8EncodeChar {character : Char} {byte : UInt8}
    (member : byte ∈ String.utf8EncodeChar character) (small : byte.toNat < 0x80) :
    byte.toNat = character.toNat := by
  by_cases large : 0x80 ≤ character.toNat
  · exact absurd small (Nat.not_lt_of_le (le_toNat_of_mem_utf8EncodeChar large byte member))
  · rcases utf8EncodeChar_cases character with ⟨-, bytes⟩ | ⟨above, -⟩ | ⟨above, -⟩ | ⟨above, -⟩
    · rw [bytes, List.mem_singleton] at member
      rw [member, UInt8.toNat_ofNat']
      omega
    all_goals omega

/-! ## Texts -/

theorem decodeUtf8_utf8Bytes (text : List Char) : decodeUtf8 (utf8Bytes text) = text.map some := by
  induction text with
  | nil => rw [utf8Bytes, List.flatMap_nil, decodeUtf8, List.map_nil]
  | cons character text inductionHypothesis =>
      obtain ⟨lead, tail, bytes, read⟩ := leadingCharacter_utf8EncodeChar character
      have split : utf8Bytes (character :: text) = lead :: (tail ++ utf8Bytes text) := by
        rw [utf8Bytes, List.flatMap_cons, bytes, List.cons_append]
        rfl
      rw [split, decodeUtf8, read]
      simp only [List.drop_left, inductionHypothesis, List.map_cons]

/-- The bytes of a text read back to the text. -/
theorem decodeLossy_utf8Bytes (text : List Char) : decodeLossy (utf8Bytes text) = text := by
  rw [decodeLossy, decodeUtf8_utf8Bytes, List.map_map]
  exact List.map_id text

end SchemaCompiler.Text
