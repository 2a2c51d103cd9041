import PhpRendering.Text.Printable

/-!
# Displayed strings

A string inside a displayed value stands between single quotes, or between
double quotes when it has a single quote and no double quote. Unprintable
characters are shown by their code points.
-/

namespace PhpRendering.Text

/-- A code point in lower-case hexadecimal digits, padded with zeros to a width. -/
def paddedHex (width code : Nat) : List Char :=
  let digits := Nat.toDigits 16 code
  List.replicate (width - digits.length) '0' ++ digits

def displayedChar (quote letter : Char) : List Char :=
  if letter == quote || letter == '\\' then ['\\', letter]
  else if letter == '\n' then ['\\', 'n']
  else if letter == '\r' then ['\\', 'r']
  else if letter == '\t' then ['\\', 't']
  else if isPrintable letter then [letter]
  else if letter.toNat < 0x100 then '\\' :: 'x' :: paddedHex 2 letter.toNat
  else if letter.toNat < 0x10000 then '\\' :: 'u' :: paddedHex 4 letter.toNat
  else '\\' :: 'U' :: paddedHex 8 letter.toNat

/-- The quote that needs the fewer escapes, single quotes being preferred. -/
def displayQuote (letters : List Char) : Char :=
  if letters.contains '\'' && !letters.contains '"' then '"' else '\''

def displayed (text : String) : String :=
  let quote := displayQuote text.toList
  String.ofList (quote :: text.toList.flatMap (displayedChar quote) ++ [quote])

end PhpRendering.Text
