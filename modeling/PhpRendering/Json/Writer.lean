import PhpRendering.Json.Basic

/-!
# Writing JSON text

The compact text of a JSON value: no blanks, printable ASCII characters only, and
numbers in the notation that reads back as the same number. Other characters are
escaped by their UTF-16 code units.
-/

namespace PhpRendering.Json

open PhpRendering.Number PhpRendering.Text

def escapedUnit (unit : Nat) : List Char :=
  '\\' :: 'u' :: paddedHex 4 unit

def writtenChar (letter : Char) : List Char :=
  let code := letter.toNat
  if letter == '"' || letter == '\\' then ['\\', letter]
  else if 0x20 ≤ code ∧ code < 0x7F then [letter]
  else if code < 0x10000 then escapedUnit code
  else
    escapedUnit (0xD800 + (code - 0x10000) / 0x400) ++ escapedUnit (0xDC00 + (code - 0x10000) % 0x400)

def writtenString (text : String) : String :=
  String.ofList ('"' :: text.toList.flatMap writtenChar ++ ['"'])

/-- A binary64 number in JSON. Infinity is the one number without digits. -/
def writtenFloat : Binary64 → String
  | .infinite negative => if negative then "-Infinity" else "Infinity"
  | finite => finite.text

def writtenScalar : Scalar → String
  | .null => "null"
  | .bool true => "true"
  | .bool false => "false"
  | .int value => toString value
  | .float value => writtenFloat value
  | .text value => writtenString value

mutual

def written : Json → String
  | .scalar value => writtenScalar value
  | .array items => "[" ++ separatedBy "," (writtenItems items) ++ "]"
  | .object members => "\x7b" ++ separatedBy "," (writtenMembers members) ++ "\x7d"

def writtenItems : List Json → List String
  | [] => []
  | item :: rest => written item :: writtenItems rest

def writtenMembers : List (String × Json) → List String
  | [] => []
  | (name, value) :: rest =>
      (writtenString name ++ ":" ++ written value) :: writtenMembers rest

end

end PhpRendering.Json
