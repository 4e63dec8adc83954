/-!
Contract: texts as sequences of words.

Owns:
- `isWhiteSpace`, the 25 code points of the White_Space property;
- `words`, the maximal runs of other characters, and `joinWords`, which parts
  words by single spaces;
- `normalized?`, the one-line form of a description.

Does not own: where descriptions come from.
-/

namespace SchemaCompiler.Text

/-- The White_Space property. -/
def isWhiteSpace (character : Char) : Bool :=
  let code := character.toNat
  (0x09 ≤ code && code ≤ 0x0D) || code = 0x20 || code = 0x85 || code = 0xA0 || code = 0x1680 ||
    (0x2000 ≤ code && code ≤ 0x200A) || code = 0x2028 || code = 0x2029 || code = 0x202F ||
    code = 0x205F || code = 0x3000

/-- Adds a character in front of the words that follow it. A character that
touches the next word extends it; any other character stands before a break. -/
def consWord (character : Char) (touches : Bool) (following : List (List Char)) :
    List (List Char) :=
  match touches, following with
  | true, word :: others => (character :: word) :: others
  | _, others => [character] :: others

/-- The maximal runs of characters other than white space. -/
def words : List Char → List (List Char)
  | [] => []
  | character :: rest =>
      if isWhiteSpace character then words rest
      else
        let touches :=
          match rest with
          | [] => false
          | next :: _ => !isWhiteSpace next
        consWord character touches (words rest)

/-- Words parted by single spaces. -/
def joinWords : List (List Char) → List Char
  | [] => []
  | [word] => word
  | word :: next :: others => word ++ ' ' :: joinWords (next :: others)

/-- The words of a text parted by single spaces; `none` when it has no word. -/
def normalized? (text : String) : Option String :=
  match words text.toList with
  | [] => none
  | word :: others => some (String.ofList (joinWords (word :: others)))

end SchemaCompiler.Text
