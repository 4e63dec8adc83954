/-!
Contract: UTF-8 with replacement of malformed sequences.

Owns:
- `utf8Bytes`, the bytes of a text;
- `decodeLossy`, the text of arbitrary bytes, where every maximal prefix of an
  ill-formed sequence is read as one U+FFFD;
- `decodeStrict?`, the text of bytes that are well formed throughout.

Does not own: any other encoding.
-/

namespace SchemaCompiler.Text

def utf8Bytes (text : List Char) : List UInt8 :=
  text.flatMap String.utf8EncodeChar

/-- The character that stands for malformed bytes. -/
def replacement : Char := Char.ofNat 0xFFFD

/-- True for the bytes that continue a sequence. -/
def isContinuation (byte : UInt8) : Bool :=
  0x80 ≤ byte.toNat && byte.toNat ≤ 0xBF

/-- The second bytes that may follow a lead byte of a sequence of three. -/
def secondOfThree (lead second : UInt8) : Bool :=
  if lead.toNat = 0xE0 then 0xA0 ≤ second.toNat && second.toNat ≤ 0xBF
  else if lead.toNat = 0xED then 0x80 ≤ second.toNat && second.toNat ≤ 0x9F
  else isContinuation second

/-- The second bytes that may follow a lead byte of a sequence of four. -/
def secondOfFour (lead second : UInt8) : Bool :=
  if lead.toNat = 0xF0 then 0x90 ≤ second.toNat && second.toNat ≤ 0xBF
  else if lead.toNat = 0xF4 then 0x80 ≤ second.toNat && second.toNat ≤ 0x8F
  else isContinuation second

/-- The six payload bits of a continuation byte. -/
def payload (byte : UInt8) : Nat := byte.toNat % 0x40

/-- The first character of a byte sequence, with `none` for a malformed prefix,
and the number of bytes it takes up beyond the first. -/
def leadingCharacter (lead : UInt8) (rest : List UInt8) : Option Char × Nat :=
  let first := lead.toNat
  if first < 0x80 then (some (Char.ofNat first), 0)
  else if 0xC2 ≤ first ∧ first ≤ 0xDF then
    match rest with
    | second :: _ =>
        if isContinuation second then
          (some (Char.ofNat (first % 0x20 * 0x40 + payload second)), 1)
        else (none, 0)
    | [] => (none, 0)
  else if 0xE0 ≤ first ∧ first ≤ 0xEF then
    match rest with
    | second :: third :: _ =>
        if !secondOfThree lead second then (none, 0)
        else if !isContinuation third then (none, 1)
        else
          (some (Char.ofNat ((first % 0x10 * 0x40 + payload second) * 0x40 + payload third)), 2)
    | [second] => (none, if secondOfThree lead second then 1 else 0)
    | [] => (none, 0)
  else if 0xF0 ≤ first ∧ first ≤ 0xF4 then
    match rest with
    | second :: third :: fourth :: _ =>
        if !secondOfFour lead second then (none, 0)
        else if !isContinuation third then (none, 1)
        else if !isContinuation fourth then (none, 2)
        else
          (some (Char.ofNat (((first % 0x08 * 0x40 + payload second) * 0x40 + payload third) * 0x40
            + payload fourth)), 3)
    | [second, third] =>
        (none, if !secondOfFour lead second then 0 else if isContinuation third then 2 else 1)
    | [second] => (none, if secondOfFour lead second then 1 else 0)
    | [] => (none, 0)
  else (none, 0)

/-- The characters of a byte sequence, `none` standing for each malformed
prefix. -/
def decodeUtf8 (bytes : List UInt8) : List (Option Char) :=
  match bytes with
  | [] => []
  | lead :: rest =>
      let (character, more) := leadingCharacter lead rest
      character :: decodeUtf8 (rest.drop more)
termination_by bytes.length
decreasing_by simp only [List.length_drop, List.length_cons]; omega

/-- The text of a byte sequence, malformed prefixes being replaced. -/
def decodeLossy (bytes : List UInt8) : List Char :=
  (decodeUtf8 bytes).map fun character => character.getD replacement

/-- The text of a byte sequence without malformed parts. -/
def decodeStrict? (bytes : List UInt8) : Option (List Char) :=
  (decodeUtf8 bytes).mapM id

end SchemaCompiler.Text
