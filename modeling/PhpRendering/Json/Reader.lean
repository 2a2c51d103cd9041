import PhpRendering.Json.Basic

/-!
# Reading JSON text

A reader over characters. A number with a point or an exponent becomes a binary64
number, every other number written in digits an integer. Besides the numbers in
digits there is the word `Infinity`, with or without a minus sign. When an object
repeats a name, the last value is kept at the first place. The readers of nested
values count down from the length of the text, which no nesting can exceed.
-/

namespace PhpRendering.Json

open PhpRendering.Number

def skipBlanks : List Char → List Char
  | [] => []
  | letter :: rest =>
      if letter == ' ' || letter == '\n' || letter == '\r' || letter == '\t' then skipBlanks rest
      else letter :: rest

def hexDigit? (letter : Char) : Option Nat :=
  if '0' ≤ letter ∧ letter ≤ '9' then some (letter.toNat - '0'.toNat)
  else if 'a' ≤ letter ∧ letter ≤ 'f' then some (letter.toNat - 'a'.toNat + 10)
  else if 'A' ≤ letter ∧ letter ≤ 'F' then some (letter.toNat - 'A'.toNat + 10)
  else none

def readHex4 : List Char → Option (Nat × List Char)
  | first :: second :: third :: fourth :: rest => do
      let a ← hexDigit? first
      let b ← hexDigit? second
      let c ← hexDigit? third
      let d ← hexDigit? fourth
      return (((a * 16 + b) * 16 + c) * 16 + d, rest)
  | _ => none

/-- The character of an escape after `\u`; two surrogates make one character. -/
def readCodePoint (letters : List Char) : Option (Char × List Char) := do
  let (unit, rest) ← readHex4 letters
  if 0xD800 ≤ unit ∧ unit < 0xDC00 then
    match rest with
    | '\\' :: 'u' :: after => do
        let (low, after) ← readHex4 after
        if 0xDC00 ≤ low ∧ low < 0xE000 then
          return (Char.ofNat (0x10000 + (unit - 0xD800) * 0x400 + (low - 0xDC00)), after)
        else none
    | _ => none
  else if 0xDC00 ≤ unit ∧ unit < 0xE000 then none
  else return (Char.ofNat unit, rest)

def simpleEscape? : Char → Option Char
  | '"' => some '"'
  | '\\' => some '\\'
  | '/' => some '/'
  | 'b' => some '\x08'
  | 'f' => some '\x0c'
  | 'n' => some '\n'
  | 'r' => some '\r'
  | 't' => some '\t'
  | _ => none

def readString : Nat → List Char → Option (List Char × List Char)
  | 0, _ => none
  | _ + 1, [] => none
  | fuel + 1, '\\' :: 'u' :: rest => do
      let (letter, rest) ← readCodePoint rest
      let (letters, rest) ← readString fuel rest
      return (letter :: letters, rest)
  | fuel + 1, '\\' :: escape :: rest => do
      let letter ← simpleEscape? escape
      let (letters, rest) ← readString fuel rest
      return (letter :: letters, rest)
  | fuel + 1, letter :: rest =>
      if letter == '"' then some ([], rest)
      else if letter == '\\' then none
      else do
        let (letters, rest) ← readString fuel rest
        return (letter :: letters, rest)

def readDigits (letters : List Char) : List Char × List Char :=
  (letters.takeWhile Char.isDigit, letters.dropWhile Char.isDigit)

def digitsValue (digits : List Char) : Nat :=
  digits.foldl (fun value digit => value * 10 + (digit.toNat - '0'.toNat)) 0

def readFraction : List Char → Option (List Char) × List Char
  | '.' :: rest =>
      let (digits, after) := readDigits rest
      if digits.isEmpty then (none, '.' :: rest) else (some digits, after)
  | letters => (none, letters)

def readExponent : List Char → Option Int × List Char
  | mark :: rest =>
      if mark == 'e' || mark == 'E' then
        let (negative, unsigned) :=
          match rest with
          | '-' :: after => (true, after)
          | '+' :: after => (false, after)
          | other => (false, other)
        let (digits, after) := readDigits unsigned
        if digits.isEmpty then (none, mark :: rest)
        else
          let power : Int := digitsValue digits
          (some (if negative then -power else power), after)
      else (none, mark :: rest)
  | [] => (none, [])

def readMagnitude (negative : Bool) (letters : List Char) : Option (Scalar × List Char) :=
  let (whole, rest) := readDigits letters
  if whole.isEmpty then none
  else
    let (fraction, rest) := readFraction rest
    let (power, rest) := readExponent rest
    match fraction, power with
    | none, none =>
        let magnitude : Int := digitsValue whole
        some (.int (if negative then -magnitude else magnitude), rest)
    | _, _ =>
        let decimals := fraction.getD []
        let exponent := power.getD 0 - decimals.length
        some (.float (Binary64.ofDecimal negative (digitsValue (whole ++ decimals)) exponent), rest)

/-- A number after its sign, in digits or as the word for infinity. -/
def readUnsigned (negative : Bool) : List Char → Option (Scalar × List Char)
  | 'I' :: 'n' :: 'f' :: 'i' :: 'n' :: 'i' :: 't' :: 'y' :: rest =>
      some (.float (.infinite negative), rest)
  | letters => readMagnitude negative letters

def readNumber : List Char → Option (Scalar × List Char)
  | '-' :: rest => readUnsigned true rest
  | letters => readUnsigned false letters

def expect (expected : Char) : List Char → Option (List Char)
  | letter :: rest => if letter == expected then some rest else none
  | [] => none

def setMember (name : String) (value : Json) : List (String × Json) → List (String × Json)
  | [] => [(name, value)]
  | (known, old) :: rest =>
      if known == name then (name, value) :: rest else (known, old) :: setMember name value rest

/-- Members in written order, a repeated name keeping its first place and its
last value. -/
def collectMembers (members : List (String × Json)) : List (String × Json) :=
  members.foldl (fun known entry => setMember entry.1 entry.2 known) []

mutual

def readValue : Nat → List Char → Option (Json × List Char)
  | 0, _ => none
  | fuel + 1, letters =>
      match skipBlanks letters with
      | '"' :: rest => do
          let (content, rest) ← readString fuel rest
          return (.scalar (.text (String.ofList content)), rest)
      | '[' :: rest =>
          match skipBlanks rest with
          | ']' :: after => some (.array [], after)
          | _ => do
              let (items, rest) ← readItems fuel rest
              return (.array items, rest)
      | '\x7b' :: rest =>
          match skipBlanks rest with
          | '\x7d' :: after => some (.object [], after)
          | _ => do
              let (members, rest) ← readMembers fuel rest
              return (.object (collectMembers members), rest)
      | 't' :: 'r' :: 'u' :: 'e' :: rest => some (.scalar (.bool true), rest)
      | 'f' :: 'a' :: 'l' :: 's' :: 'e' :: rest => some (.scalar (.bool false), rest)
      | 'n' :: 'u' :: 'l' :: 'l' :: rest => some (.null, rest)
      | other => do
          let (number, rest) ← readNumber other
          return (.scalar number, rest)

def readItems : Nat → List Char → Option (List Json × List Char)
  | 0, _ => none
  | fuel + 1, letters => do
      let (item, rest) ← readValue fuel letters
      match skipBlanks rest with
      | ',' :: rest => do
          let (items, rest) ← readItems fuel rest
          return (item :: items, rest)
      | ']' :: rest => return ([item], rest)
      | _ => none

def readMembers : Nat → List Char → Option (List (String × Json) × List Char)
  | 0, _ => none
  | fuel + 1, letters => do
      let rest ← expect '"' (skipBlanks letters)
      let (name, rest) ← readString fuel rest
      let rest ← expect ':' (skipBlanks rest)
      let (value, rest) ← readValue fuel rest
      match skipBlanks rest with
      | ',' :: rest => do
          let (members, rest) ← readMembers fuel rest
          return ((String.ofList name, value) :: members, rest)
      | '\x7d' :: rest => return ([(String.ofList name, value)], rest)
      | _ => none

end

/-- The value that a text denotes, when it is one JSON value and nothing else. -/
def read? (source : String) : Option Json := do
  let letters := source.toList
  let (value, rest) ← readValue (letters.length + 1) letters
  if (skipBlanks rest).isEmpty then return value else none

end PhpRendering.Json
