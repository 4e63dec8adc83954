import SchemaCompiler.Text.Utf8
import SchemaCompiler.Json.Reader

/-!
Contract: reference pointers and the bare schema names they stand for.

Owns:
- `Reference`, a pointer as written under `$ref`;
- `Reference.schemaName`, the last pointer segment with its encodings undone.

A pointer is reduced to a name and never followed across documents: every
loaded document's schemas share one namespace.

Does not own: looking a name up.
-/

namespace SchemaCompiler

/-- A reference pointer such as `#/components/schemas/Instance`. -/
structure Reference where
  pointer : String
deriving DecidableEq, Repr

namespace Reference

/-- The characters after the last `mark`; `none` when the mark is absent or
nothing follows it. -/
def afterLast? (mark : Char) (text : List Char) : Option (List Char) :=
  if mark ∈ text then
    match (text.reverse.takeWhile (· ≠ mark)).reverse with
    | [] => none
    | segment => some segment
  else none

/-- Replaces every `~` followed by `digit` with `character`. -/
def replaceTilde (digit character : Char) : List Char → List Char
  | '~' :: next :: rest =>
      if next = digit then character :: replaceTilde digit character rest
      else '~' :: replaceTilde digit character (next :: rest)
  | first :: rest => first :: replaceTilde digit character rest
  | [] => []

/-- The value of a byte that is a hexadecimal digit. -/
def hexByte? (byte : UInt8) : Option Nat :=
  Json.hexValue? (Char.ofNat byte.toNat)

/-- Replaces every percent sign followed by two hexadecimal digits with the
byte they denote. -/
def percentDecoded : List UInt8 → List UInt8
  | 0x25 :: high :: low :: rest =>
      match hexByte? high, hexByte? low with
      | some upper, some lower => UInt8.ofNat (upper * 16 + lower) :: percentDecoded rest
      | _, _ => 0x25 :: percentDecoded (high :: low :: rest)
  | byte :: rest => byte :: percentDecoded rest
  | [] => []

/-- Undoes the encodings of a pointer segment: `~1`, then `~0`, then percent
signs; malformed bytes that result are replaced. -/
def decodedSegment (segment : List Char) : List Char :=
  let plain := replaceTilde '0' '~' (replaceTilde '1' '/' segment)
  Text.decodeLossy (percentDecoded (Text.utf8Bytes plain))

/-- The bare name a pointer stands for: its segment after the last slash, else
after the last number sign, else the whole pointer as written. A mark that ends
the pointer is passed over. -/
def nameOfPointer (pointer : List Char) : List Char :=
  match afterLast? '/' pointer with
  | some segment => decodedSegment segment
  | none =>
      match afterLast? '#' pointer with
      | some segment => decodedSegment segment
      | none => pointer

/-- The bare schema name that the reference stands for. -/
def schemaName (reference : Reference) : String :=
  String.ofList (nameOfPointer reference.pointer.toList)

end Reference

end SchemaCompiler
