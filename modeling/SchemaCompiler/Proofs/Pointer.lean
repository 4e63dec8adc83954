import SchemaCompiler.Schema.Reference
import SchemaCompiler.Proofs.Naming
import SchemaCompiler.Proofs.Utf8

/-!
Contract: schema names written into reference pointers.

Owns:
- `Reference.Encodes`, the segments that a name may be written as: tildes and
  slashes are escaped first, and then every byte that is not unreserved is written
  behind a percent sign, with hexadecimal digits of either case;
- `decodedSegment_of_encodes`, which undoes both encodings;
- `schemaName_encoded`: behind a slash, and behind a number sign when there is no
  slash, the segment stands for the name, and for no other.

The tildes of an encoded segment are exactly those of the escapes, because a tilde
of the name is escaped and never hidden behind a percent sign. So they can be
replaced before the percent signs are looked at.

Does not own: pointers that are no encoding of any name.
-/

namespace SchemaCompiler.Reference

/-! ## Encoded segments -/

/-- The characters that stand for themselves in a segment. -/
def isUnreserved (character : Char) : Bool :=
  character.isAlphanum || ['-', '.', '_', '~'].contains character

/-- The character is the hexadecimal digit of a value, in either case. -/
def IsHexDigit (character : Char) (value : Nat) : Prop :=
  character = Nat.digitChar value ∨ character = (Nat.digitChar value).toUpper

/-- The texts that bytes may be written as, every byte that is not unreserved
behind a percent sign. -/
inductive PercentEncoded : List UInt8 → List Char → Prop where
  | nil : PercentEncoded [] []
  | plain {byte : UInt8} {bytes : List UInt8} {text : List Char}
      (unreserved : isUnreserved (Char.ofNat byte.toNat) = true)
      (rest : PercentEncoded bytes text) :
      PercentEncoded (byte :: bytes) (Char.ofNat byte.toNat :: text)
  | escaped {byte : UInt8} {bytes : List UInt8} {text : List Char} {high low : Char}
      (reserved : isUnreserved (Char.ofNat byte.toNat) = false)
      (upper : IsHexDigit high (byte.toNat / 16)) (lower : IsHexDigit low (byte.toNat % 16))
      (rest : PercentEncoded bytes text) :
      PercentEncoded (byte :: bytes) ('%' :: high :: low :: text)

/-- The escape of one character of a name. -/
def escapedCharacter (character : Char) : List Char :=
  if character = '~' then ['~', '0'] else if character = '/' then ['~', '1'] else [character]

/-- The segment is a written form of the name. -/
def Encodes (segment name : String) : Prop :=
  PercentEncoded (Text.utf8Bytes (name.toList.flatMap escapedCharacter)) segment.toList

/-! ## Percent signs -/

variable {bytes : List UInt8} {text : List Char}

theorem hexValue?_of_isHexDigit {character : Char} {value : Nat} (small : value < 16)
    (digit : IsHexDigit character value) : Json.hexValue? character = some value := by
  have all : ∀ value < 16, Json.hexValue? (Nat.digitChar value) = some value ∧
      Json.hexValue? (Nat.digitChar value).toUpper = some value := by decide
  rcases digit with rfl | rfl
  · exact (all value small).1
  · exact (all value small).2

theorem isAlphanum_of_isHexDigit {character : Char} {value : Nat} (small : value < 16)
    (digit : IsHexDigit character value) : character.isAlphanum = true := by
  have all : ∀ value < 16, (Nat.digitChar value).isAlphanum = true ∧
      (Nat.digitChar value).toUpper.isAlphanum = true := by decide
  rcases digit with rfl | rfl
  · exact (all value small).1
  · exact (all value small).2

/-- A character of an encoded text is a percent sign, a hexadecimal digit, or a
byte that stands for itself. -/
theorem PercentEncoded.cases_of_mem (encoded : PercentEncoded bytes text) {character : Char}
    (member : character ∈ text) : character = '%' ∨ character.isAlphanum = true ∨
      isUnreserved character = true ∧ ∃ byte ∈ bytes, character = Char.ofNat byte.toNat := by
  induction encoded with
  | nil => cases member
  | @plain byte _ _ unreserved _ inductionHypothesis =>
      rcases List.mem_cons.1 member with rfl | later
      · exact Or.inr (Or.inr ⟨unreserved, byte, List.mem_cons_self, rfl⟩)
      · refine (inductionHypothesis later).imp_right (Or.imp_right ?_)
        rintro ⟨itself, other, listed, same⟩
        exact ⟨itself, other, List.mem_cons_of_mem _ listed, same⟩
  | @escaped byte _ _ _ _ _ upper lower _ inductionHypothesis =>
      have small : byte.toNat < 256 := byte.toNat_lt
      simp only [List.mem_cons] at member
      rcases member with rfl | rfl | rfl | later
      · exact Or.inl rfl
      · exact Or.inr (Or.inl (isAlphanum_of_isHexDigit (by omega) upper))
      · exact Or.inr (Or.inl (isAlphanum_of_isHexDigit (by omega) lower))
      · refine (inductionHypothesis later).imp_right (Or.imp_right ?_)
        rintro ⟨itself, other, listed, same⟩
        exact ⟨itself, other, List.mem_cons_of_mem _ listed, same⟩

/-- Encoded texts hold none of the marks that part a pointer. -/
theorem PercentEncoded.not_mem (encoded : PercentEncoded bytes text) {mark : Char}
    (separates : mark = '/' ∨ mark = '#') : mark ∉ text := by
  have reserved : mark ≠ '%' ∧ mark.isAlphanum = false ∧ isUnreserved mark = false := by
    rcases separates with rfl | rfl <;> decide
  intro member
  rcases encoded.cases_of_mem member with percent | alphanumeric | ⟨unreserved, -⟩
  · exact reserved.1 percent
  · rw [reserved.2.1] at alphanumeric
    cases alphanumeric
  · rw [reserved.2.2] at unreserved
    cases unreserved

theorem toNat_of_isUnreserved {character : Char} (unreserved : isUnreserved character = true) :
    character.toNat < 0x80 := by
  have marks : ∀ mark ∈ ['-', '.', '_', '~'], mark.toNat < 0x80 := by simp
  simp only [isUnreserved, Bool.or_eq_true, List.contains_eq_mem, decide_eq_true_eq] at unreserved
  exact unreserved.elim Naming.toNat_lt_of_isAlphanum (marks character)

theorem PercentEncoded.split {first second : List UInt8}
    (encoded : PercentEncoded (first ++ second) text) :
    ∃ front back, text = front ++ back ∧ PercentEncoded first front ∧
      PercentEncoded second back := by
  induction first generalizing text with
  | nil => exact ⟨[], text, rfl, .nil, encoded⟩
  | cons byte first inductionHypothesis =>
      cases encoded with
      | plain unreserved rest =>
          obtain ⟨front, back, rfl, own, others⟩ := inductionHypothesis rest
          exact ⟨_ :: front, back, rfl, .plain unreserved own, others⟩
      | escaped reserved upper lower rest =>
          obtain ⟨front, back, rfl, own, others⟩ := inductionHypothesis rest
          exact ⟨_ :: _ :: _ :: front, back, rfl, .escaped reserved upper lower own, others⟩

theorem exists_percentEncoded (bytes : List UInt8) : ∃ text, PercentEncoded bytes text := by
  induction bytes with
  | nil => exact ⟨[], .nil⟩
  | cons byte bytes inductionHypothesis =>
      obtain ⟨text, encoded⟩ := inductionHypothesis
      cases unreserved : isUnreserved (Char.ofNat byte.toNat) with
      | true => exact ⟨_, .plain unreserved encoded⟩
      | false => exact ⟨_, .escaped unreserved (Or.inl rfl) (Or.inl rfl) encoded⟩

/-- Bytes that are all unreserved stand for themselves. -/
theorem PercentEncoded.eq_map (encoded : PercentEncoded bytes text)
    (unreserved : bytes.all (fun byte => isUnreserved (Char.ofNat byte.toNat)) = true) :
    text = bytes.map fun byte => Char.ofNat byte.toNat := by
  induction encoded with
  | nil => rfl
  | plain _ _ inductionHypothesis =>
      rw [List.all_cons, Bool.and_eq_true] at unreserved
      rw [List.map_cons, ← inductionHypothesis unreserved.2]
  | escaped reserved _ _ _ _ =>
      rw [List.all_cons, reserved, Bool.false_and] at unreserved
      cases unreserved

/-! ## Undoing percent signs -/

/-- Every byte is the code of a character. -/
theorem toNat_ofNat_byte (byte : UInt8) : (Char.ofNat byte.toNat).toNat = byte.toNat := by
  have valid : byte.toNat.isValidChar := Or.inl (Nat.lt_trans byte.toNat_lt (by decide))
  rw [Char.ofNat, dif_pos valid]
  rfl

theorem utf8Bytes_cons_of_small {character : Char} (small : character.toNat < 0x80)
    (text : List Char) : Text.utf8Bytes (character :: text) =
      UInt8.ofNat character.toNat :: Text.utf8Bytes text := by
  have bytes : String.utf8EncodeChar character = [UInt8.ofNat character.toNat] := by
    rcases Text.utf8EncodeChar_cases character with ⟨-, bytes⟩ | ⟨large, -, -⟩ | ⟨large, -, -⟩ |
      ⟨large, -⟩
    · exact bytes
    all_goals omega
  rw [Text.utf8Bytes, List.flatMap_cons, bytes]
  rfl

theorem percentDecoded_cons {byte : UInt8} (plain : byte ≠ 0x25) (rest : List UInt8) :
    percentDecoded (byte :: rest) = byte :: percentDecoded rest :=
  percentDecoded.eq_2 byte rest fun _ _ _ same _ => plain same

/-- A byte is decoded from its two digits. -/
theorem percentDecoded_escape {byte high low : UInt8}
    (upper : hexByte? high = some (byte.toNat / 16)) (lower : hexByte? low = some (byte.toNat % 16))
    (rest : List UInt8) :
    percentDecoded (0x25 :: high :: low :: rest) = byte :: percentDecoded rest := by
  rw [percentDecoded, upper, lower]
  simp only [Nat.div_add_mod', UInt8.ofNat_toNat]

theorem hexByte?_ofNat {character : Char} {value : Nat} (small : value < 16)
    (digit : IsHexDigit character value) :
    hexByte? (UInt8.ofNat character.toNat) = some value := by
  have code : character.toNat < 128 :=
    Naming.toNat_lt_of_isAlphanum (isAlphanum_of_isHexDigit small digit)
  have own : (UInt8.ofNat character.toNat).toNat = character.toNat := by
    rw [UInt8.toNat_ofNat']
    omega
  rw [hexByte?, own, Char.ofNat_toNat, hexValue?_of_isHexDigit small digit]

/-- Decoding an encoded text gives its bytes, whatever stands behind it. -/
theorem PercentEncoded.decode (encoded : PercentEncoded bytes text) (rest : List Char) :
    percentDecoded (Text.utf8Bytes (text ++ rest)) =
      bytes ++ percentDecoded (Text.utf8Bytes rest) := by
  induction encoded with
  | nil => rfl
  | @plain byte bytes text unreserved _ inductionHypothesis =>
      have own : UInt8.ofNat (Char.ofNat byte.toNat).toNat = byte := by
        have code : (Char.ofNat byte.toNat).toNat = byte.toNat := toNat_ofNat_byte byte
        rw [code, UInt8.ofNat_toNat]
      have unmarked : byte ≠ 0x25 := by
        rintro rfl
        exact absurd unreserved (by decide)
      rw [List.cons_append, utf8Bytes_cons_of_small (toNat_of_isUnreserved unreserved), own,
        percentDecoded_cons unmarked, inductionHypothesis, List.cons_append]
  | @escaped byte bytes text high low _ upper lower _ inductionHypothesis =>
      have small : byte.toNat < 256 := byte.toNat_lt
      have ascii : ∀ {digit : Char} {value : Nat}, value < 16 → IsHexDigit digit value →
          digit.toNat < 0x80 := fun bound isDigit =>
        Naming.toNat_lt_of_isAlphanum (isAlphanum_of_isHexDigit bound isDigit)
      rw [List.cons_append, List.cons_append, List.cons_append,
        utf8Bytes_cons_of_small (by decide), utf8Bytes_cons_of_small (ascii (by omega) upper),
        utf8Bytes_cons_of_small (ascii (by omega) lower)]
      exact (percentDecoded_escape (hexByte?_ofNat (by omega) upper)
        (hexByte?_ofNat (by omega) lower) _).trans (congrArg (byte :: ·) inductionHypothesis)

/-! ## Undoing tildes -/

theorem replaceTilde_cons {first : Char} (plain : first ≠ '~') (digit character : Char)
    (rest : List Char) :
    replaceTilde digit character (first :: rest) =
      first :: replaceTilde digit character rest :=
  replaceTilde.eq_2 digit character first rest fun _ _ same _ => plain same

/-- Nothing is replaced in a text without tildes. -/
theorem replaceTilde_append {front : List Char} (plain : '~' ∉ front) (digit character : Char)
    (rest : List Char) :
    replaceTilde digit character (front ++ rest) =
      front ++ replaceTilde digit character rest := by
  induction front with
  | nil => rfl
  | cons first front inductionHypothesis =>
      rw [List.mem_cons, not_or] at plain
      rw [List.cons_append, replaceTilde_cons (Ne.symm plain.1), inductionHypothesis plain.2,
        List.cons_append]

/-- There is a tilde in the written form of a tilde only. -/
theorem PercentEncoded.tilde_not_mem {character : Char}
    (encoded : PercentEncoded (String.utf8EncodeChar character) text) (plain : character ≠ '~') :
    '~' ∉ text := by
  intro member
  rcases encoded.cases_of_mem member with percent | alphanumeric | ⟨-, byte, listed, same⟩
  · exact absurd percent (by decide)
  · exact absurd alphanumeric (by decide)
  · have code : byte.toNat = '~'.toNat := by rw [same, toNat_ofNat_byte]
    have own := Text.toNat_of_mem_utf8EncodeChar listed (by rw [code]; decide)
    exact plain (Char.toNat_inj.1 (own.symm.trans code))

/-- The text that is left of a segment when its tildes are replaced. -/
def untilded (segment : List Char) : List Char :=
  replaceTilde '0' '~' (replaceTilde '1' '/' segment)

theorem untilded_tilde (rest : List Char) :
    untilded ('~' :: '0' :: rest) = '~' :: untilded rest := by
  have kept : replaceTilde '1' '/' ('~' :: '0' :: rest) =
      '~' :: '0' :: replaceTilde '1' '/' rest := by
    rw [replaceTilde, if_neg (by decide), replaceTilde_cons (by decide)]
  rw [untilded, kept, replaceTilde, if_pos rfl, untilded]

theorem untilded_slash (rest : List Char) :
    untilded ('~' :: '1' :: rest) = '/' :: untilded rest := by
  unfold untilded
  rw [replaceTilde, if_pos rfl, replaceTilde_cons (by decide)]

theorem untilded_append {front : List Char} (plain : '~' ∉ front) (rest : List Char) :
    untilded (front ++ rest) = front ++ untilded rest := by
  unfold untilded
  rw [replaceTilde_append plain, replaceTilde_append plain]

/-! ## Segments -/

/-- Undoing both encodings gives the bytes of the first character, whatever stands
behind its written form. -/
theorem percentDecoded_untilded_append {character : Char} {front : List Char}
    (encoded : PercentEncoded (Text.utf8Bytes (escapedCharacter character)) front)
    (rest : List Char) :
    percentDecoded (Text.utf8Bytes (untilded (front ++ rest))) =
      String.utf8EncodeChar character ++ percentDecoded (Text.utf8Bytes (untilded rest)) := by
  by_cases tilde : character = '~'
  · subst tilde
    obtain rfl : front = ['~', '0'] := encoded.eq_map (by decide)
    rw [List.cons_append, List.singleton_append, untilded_tilde,
      utf8Bytes_cons_of_small (by decide), percentDecoded_cons (by decide)]
    rfl
  by_cases slash : character = '/'
  · subst slash
    obtain rfl : front = ['~', '1'] := encoded.eq_map (by decide)
    rw [List.cons_append, List.singleton_append, untilded_slash,
      utf8Bytes_cons_of_small (by decide), percentDecoded_cons (by decide)]
    rfl
  · have itself :
        Text.utf8Bytes (escapedCharacter character) = String.utf8EncodeChar character := by
      rw [escapedCharacter, if_neg tilde, if_neg slash]
      exact List.flatMap_singleton _ _
    rw [itself] at encoded
    -- Its bytes make no tilde, so the replacements leave them to the percent signs.
    rw [untilded_append (encoded.tilde_not_mem tilde), encoded.decode]

/-- Undoing both encodings of a segment gives the bytes of the name. -/
theorem percentDecoded_untilded {segment name : List Char}
    (encoded : PercentEncoded (Text.utf8Bytes (name.flatMap escapedCharacter)) segment) :
    percentDecoded (Text.utf8Bytes (untilded segment)) = Text.utf8Bytes name := by
  induction name generalizing segment with
  | nil =>
      cases encoded
      rfl
  | cons character name inductionHypothesis =>
      have bytes : Text.utf8Bytes ((character :: name).flatMap escapedCharacter) =
          Text.utf8Bytes (escapedCharacter character) ++
            Text.utf8Bytes (name.flatMap escapedCharacter) := by
        rw [List.flatMap_cons, Text.utf8Bytes, List.flatMap_append]
        rfl
      rw [bytes] at encoded
      obtain ⟨front, back, rfl, own, others⟩ := encoded.split
      rw [percentDecoded_untilded_append own, inductionHypothesis others]
      rfl

theorem decodedSegment_of_encodes {segment name : String} (encodes : Encodes segment name) :
    decodedSegment segment.toList = name.toList := by
  have bytes := percentDecoded_untilded encodes
  rw [untilded] at bytes
  simp only [decodedSegment, bytes, Text.decodeLossy_utf8Bytes]

/-- The segment of a name is not empty. -/
theorem segment_ne_nil {segment name : String} (encodes : Encodes segment name)
    (nonempty : name ≠ "") : segment.toList ≠ [] := by
  intro nothing
  have read := decodedSegment_of_encodes encodes
  have blank : Text.decodeLossy [] = [] := Text.decodeLossy_utf8Bytes []
  rw [nothing, decodedSegment, replaceTilde, replaceTilde, Text.utf8Bytes, List.flatMap_nil,
    percentDecoded, blank] at read
  exact nonempty (String.toList_eq_nil_iff.1 read.symm)

/-! ## Pointers -/

theorem afterLast?_append {mark : Char} {segment : List Char} (unmarked : mark ∉ segment)
    (present : segment ≠ []) (front : List Char) :
    afterLast? mark (front ++ mark :: segment) = some segment := by
  have marked : mark ∈ front ++ mark :: segment := by simp
  have other : ∀ character ∈ segment.reverse, decide (character ≠ mark) = true := by
    intro character listed
    rw [decide_eq_true_eq]
    rintro rfl
    exact unmarked (List.mem_reverse.1 listed)
  have tail : (front ++ mark :: segment).reverse.takeWhile (· ≠ mark) = segment.reverse := by
    rw [List.reverse_append, List.reverse_cons, List.append_assoc,
      List.takeWhile_append_of_pos other]
    simp
  rw [afterLast?, if_pos marked, tail, List.reverse_reverse]
  cases segment with
  | nil => exact absurd rfl present
  | cons first rest => rfl

theorem afterLast?_of_not_mem {mark : Char} {pointer : List Char} (unmarked : mark ∉ pointer) :
    afterLast? mark pointer = none := by
  rw [afterLast?, if_neg unmarked]

/-- Every name but the empty one can be written as a segment. Behind a slash the
segment stands for the name, and so it does behind a number sign when no slash
stands before it. No segment is a written form of two names. -/
theorem schemaName_encoded {name : String} (nonempty : name ≠ "") :
    (∃ segment, Encodes segment name) ∧ ∀ segment, Encodes segment name →
      (∀ front, (Reference.mk (front ++ "/" ++ segment)).schemaName = name) ∧
      (∀ front : String, '/' ∉ front.toList →
        (Reference.mk (front ++ "#" ++ segment)).schemaName = name) ∧
      ∀ other, Encodes segment other → other = name := by
  constructor
  · obtain ⟨text, encoded⟩ :=
      exists_percentEncoded (Text.utf8Bytes (name.toList.flatMap escapedCharacter))
    refine ⟨String.ofList text, ?_⟩
    rwa [Encodes, String.toList_ofList]
  intro segment encodes
  have decoded := decodedSegment_of_encodes encodes
  have present := segment_ne_nil encodes nonempty
  have noSlash : '/' ∉ segment.toList := PercentEncoded.not_mem encodes (Or.inl rfl)
  have noMark : '#' ∉ segment.toList := PercentEncoded.not_mem encodes (Or.inr rfl)
  refine ⟨fun front => ?_, fun front unslashed => ?_, fun other also => ?_⟩
  · have pointer : (front ++ "/" ++ segment).toList = front.toList ++ '/' :: segment.toList := by
      simp
    rw [schemaName, nameOfPointer, pointer, afterLast?_append noSlash present]
    simp only [decoded, String.ofList_toList]
  · have pointer : (front ++ "#" ++ segment).toList = front.toList ++ '#' :: segment.toList := by
      simp
    have nowhere : '/' ∉ front.toList ++ '#' :: segment.toList := by
      simpa using ⟨unslashed, noSlash⟩
    rw [schemaName, nameOfPointer, pointer, afterLast?_of_not_mem nowhere,
      afterLast?_append noMark present]
    simp only [decoded, String.ofList_toList]
  · exact String.toList_inj.1 ((decodedSegment_of_encodes also).symm.trans decoded)

/-- A name that looks like an escape itself, with digits of both cases in its
segment. -/
theorem schemaName_encoded_tilde :
    "~1/é" ≠ "" ∧ Encodes "~01~1%C3%a9" "~1/é" ∧
      (Reference.mk ("common.yaml#/components/schemas" ++ "/" ++ "~01~1%C3%a9")).schemaName =
        "~1/é" ∧
      (Reference.mk ("common.yaml" ++ "#" ++ "~01~1%C3%a9")).schemaName = "~1/é" := by
  have nonempty : "~1/é" ≠ "" := by decide
  have encodes : Encodes "~01~1%C3%a9" "~1/é" := by
    have bytes : Text.utf8Bytes ("~1/é".toList.flatMap escapedCharacter) =
        [0x7E, 0x30, 0x31, 0x7E, 0x31, 0xC3, 0xA9] := by decide +kernel
    rw [Encodes, bytes]
    exact .plain rfl (.plain rfl (.plain rfl (.plain rfl (.plain rfl (.escaped rfl (Or.inr rfl)
      (Or.inl rfl) (.escaped rfl (Or.inl rfl) (Or.inl rfl) .nil))))))
  obtain ⟨behindSlash, behindMark, -⟩ := (schemaName_encoded nonempty).2 _ encodes
  exact ⟨nonempty, encodes, behindSlash _, behindMark _ (by decide)⟩

end SchemaCompiler.Reference
