import Mathlib.Algebra.Group.Nat.Defs
import Mathlib.Data.List.Induction
import Mathlib.Tactic.SplitIfs

/-!
# String literals of the source

What stands between the quotes of a string literal of the source: letters and escapes, each
of which spells some code units. A text is spelled by a literal when these code units are
its own. The target keeps texts as bytes, so the code units are also read as bytes, where a
surrogate waits for the one that completes it.
-/

namespace PhpRendering

/-! ## Code points -/

def Utf8.encode (code : Nat) : List Nat :=
  if code < 0x80 then [code]
  else if code < 0x800 then [0xC0 + code / 64, 0x80 + code % 64]
  else if code < 0x10000 then
    [0xE0 + code / 4096, 0x80 + code / 64 % 64, 0x80 + code % 64]
  else
    [0xF0 + code / 262144, 0x80 + code / 4096 % 64, 0x80 + code / 64 % 64, 0x80 + code % 64]

def Utf8.bytes (letters : List Char) : List Nat :=
  letters.flatMap fun letter => encode letter.toNat

theorem Utf8.bytes_cons (letter : Char) (rest : List Char) :
    bytes (letter :: rest) = encode letter.toNat ++ bytes rest :=
  List.flatMap_cons

namespace Utf16

def encode (code : Nat) : List Nat :=
  if code < 0x10000 then [code]
  else [0xD800 + (code - 0x10000) / 1024, 0xDC00 + (code - 0x10000) % 1024]

def units (letters : List Char) : List Nat :=
  letters.flatMap fun letter => encode letter.toNat

def IsLead (unit : Nat) : Prop :=
  0xD800 ≤ unit ∧ unit < 0xDC00

def IsTrail (unit : Nat) : Prop :=
  0xDC00 ≤ unit ∧ unit < 0xE000

instance : DecidablePred IsLead :=
  fun unit => inferInstanceAs (Decidable (0xD800 ≤ unit ∧ unit < 0xDC00))

instance : DecidablePred IsTrail :=
  fun unit => inferInstanceAs (Decidable (0xDC00 ≤ unit ∧ unit < 0xE000))

def pair (lead trail : Nat) : Nat :=
  0x10000 + (lead - 0xD800) * 1024 + (trail - 0xDC00)

/-- The bytes of some code units, behind the first unit of a pair that is not complete yet.
There are none when a unit of a pair stands alone. -/
def bytes? : Option Nat → List Nat → Option (List Nat)
  | none, [] => some []
  | some _, [] => none
  | none, unit :: rest =>
      if IsLead unit then bytes? (some unit) rest
      else if IsTrail unit then none
      else (bytes? none rest).map (Utf8.encode unit ++ ·)
  | some lead, unit :: rest =>
      if IsLead lead ∧ IsTrail unit then
        (bytes? none rest).map (Utf8.encode (pair lead unit) ++ ·)
      else none

end Utf16

def IsScalarCode (code : Nat) : Prop :=
  code < 0xD800 ∨ 0xE000 ≤ code ∧ code < 0x110000

instance : DecidablePred IsScalarCode :=
  fun code => inferInstanceAs (Decidable (code < 0xD800 ∨ 0xE000 ≤ code ∧ code < 0x110000))

theorem IsScalarCode.lt {code : Nat} (scalar : IsScalarCode code) : code < 0x110000 := by
  unfold IsScalarCode at scalar
  omega

theorem isScalarCode_toNat (letter : Char) : IsScalarCode letter.toNat :=
  letter.valid

namespace Utf16

/-- A code point that is no surrogate is read as its bytes, where no pair is open. -/
theorem bytes?_encode {code : Nat} (scalar : IsScalarCode code) (rest : List Nat) :
    bytes? none (encode code ++ rest) = (bytes? none rest).map (Utf8.encode code ++ ·) := by
  unfold IsScalarCode at scalar
  unfold encode
  split
  · have alone : ¬ IsLead code ∧ ¬ IsTrail code := by
      unfold IsLead IsTrail
      omega
    simp [bytes?, alone]
  · have leads : IsLead (0xD800 + (code - 0x10000) / 1024) := by
      unfold IsLead
      omega
    have trails : IsTrail (0xDC00 + (code - 0x10000) % 1024) := by
      unfold IsTrail
      omega
    have whole : pair (0xD800 + (code - 0x10000) / 1024) (0xDC00 + (code - 0x10000) % 1024) =
        code := by
      unfold pair
      omega
    simp [bytes?, leads, trails, whole]

/-- A pair that is open is completed by no such code point. -/
theorem bytes?_encode_of_open {code : Nat} (scalar : IsScalarCode code) (lead : Nat)
    (rest : List Nat) : bytes? (some lead) (encode code ++ rest) = none := by
  unfold IsScalarCode at scalar
  unfold encode
  split
  · have other : ¬ IsTrail code := by
      unfold IsTrail
      omega
    simp [bytes?, other]
  · have other : ¬ IsTrail (0xD800 + (code - 0x10000) / 1024) := by
      unfold IsTrail
      omega
    simp [bytes?, other]

/-- The code units of a text are read as its bytes. -/
theorem bytes?_units (letters : List Char) :
    bytes? none (units letters) = some (Utf8.bytes letters) := by
  induction letters with
  | nil => rfl
  | cons letter rest ih =>
      have split : units (letter :: rest) = encode letter.toNat ++ units rest :=
        List.flatMap_cons
      rw [split, bytes?_encode (isScalarCode_toNat letter), ih, Utf8.bytes_cons]
      rfl

/-- A surrogate opens a pair, or it completes one to a code point with four bytes. -/
theorem bytes?_surrogate {unit : Nat} (surrogate : 0xD800 ≤ unit ∧ unit < 0xE000)
    {waiting : Option Nat} {rest bytes : List Nat}
    (read : bytes? waiting (unit :: rest) = some bytes) :
    ∃ front next later, bytes = front ++ later ∧ bytes? next rest = some later ∧
      (front = [] ∨ ∃ code, 0x10000 ≤ code ∧ code < 0x120000 ∧ front = Utf8.encode code) := by
  cases waiting with
  | none =>
      simp only [bytes?] at read
      split at read
      · exact ⟨[], _, bytes, rfl, read, .inl rfl⟩
      · next other =>
          have trails : IsTrail unit := by
            unfold IsLead at other
            unfold IsTrail
            omega
          rw [if_pos trails] at read
          cases read
  | some lead =>
      simp only [bytes?] at read
      split at read
      · next pairs =>
          obtain ⟨later, found, rfl⟩ := Option.map_eq_some_iff.mp read
          refine ⟨_, none, later, rfl, found, .inr ⟨pair lead unit, ?_, ?_, rfl⟩⟩
          · unfold pair
            omega
          · obtain ⟨⟨low, high⟩, -⟩ := pairs
            unfold pair
            omega
      · cases read

/-- What a code point adds to the bytes. It is a surrogate, or no pair is open before it and
after it. -/
theorem bytes?_encode_append {code : Nat} (small : code < 0x110000) {waiting : Option Nat}
    {rest bytes : List Nat} (read : bytes? waiting (encode code ++ rest) = some bytes) :
    ∃ front next later, bytes = front ++ later ∧ bytes? next rest = some later ∧
      (IsScalarCode code ∧ front = Utf8.encode code ∨
        ¬ IsScalarCode code ∧
          (front = [] ∨ ∃ whole, 0x10000 ≤ whole ∧ front = Utf8.encode whole)) := by
  by_cases scalar : IsScalarCode code
  · cases waiting with
    | none =>
        rw [bytes?_encode scalar] at read
        obtain ⟨later, found, rfl⟩ := Option.map_eq_some_iff.mp read
        exact ⟨_, none, later, rfl, found, .inl ⟨scalar, rfl⟩⟩
    | some lead =>
        rw [bytes?_encode_of_open scalar] at read
        cases read
  · have surrogate : 0xD800 ≤ code ∧ code < 0xE000 := by
      unfold IsScalarCode at scalar
      omega
    have alone : encode code = [code] := if_pos (by omega)
    rw [alone] at read
    obtain ⟨front, next, later, split, found, short⟩ := bytes?_surrogate surrogate read
    refine ⟨front, next, later, split, found, .inr ⟨scalar, short.imp_right ?_⟩⟩
    rintro ⟨whole, large, -, eq⟩
    exact ⟨whole, large, eq⟩

end Utf16

/-! ## Elements of a literal -/

def digitValue (digit : Char) : Nat :=
  if digit.toNat < 0x3A then digit.toNat - 0x30
  else if digit.toNat < 0x47 then digit.toNat - 0x37
  else digit.toNat - 0x57

def numberOf (base : Nat) (digits : List Char) : Nat :=
  digits.foldl (fun number digit => number * base + digitValue digit) 0

def isOctalDigit (letter : Char) : Bool :=
  '0' ≤ letter && letter ≤ '7'

def isHexDigit (letter : Char) : Bool :=
  '0' ≤ letter && letter ≤ '9' || 'a' ≤ letter && letter ≤ 'f' || 'A' ≤ letter && letter ≤ 'F'

theorem isOctalDigit_iff {letter : Char} :
    isOctalDigit letter = true ↔ 0x30 ≤ letter.toNat ∧ letter.toNat ≤ 0x37 := by
  rw [isOctalDigit, Bool.and_eq_true, decide_eq_true_iff, decide_eq_true_iff]
  rfl

theorem isHexDigit_iff {letter : Char} :
    isHexDigit letter = true ↔ (0x30 ≤ letter.toNat ∧ letter.toNat ≤ 0x39 ∨
      0x61 ≤ letter.toNat ∧ letter.toNat ≤ 0x66) ∨ 0x41 ≤ letter.toNat ∧ letter.toNat ≤ 0x46 := by
  simp only [isHexDigit, Bool.or_eq_true, Bool.and_eq_true, decide_eq_true_iff]
  rfl

theorem isHexDigit_of_isOctalDigit {digit : Char} (octal : isOctalDigit digit = true) :
    isHexDigit digit = true := by
  have range := isOctalDigit_iff.mp octal
  exact isHexDigit_iff.mpr (.inl (.inl ⟨range.1, by omega⟩))

theorem ne_of_isHexDigit {digit other : Char} (hex : isHexDigit digit = true)
    (different : isHexDigit other = false) : digit ≠ other := by
  rintro rfl
  cases hex.symm.trans different

theorem digitValue_lt_of_isOctalDigit {digit : Char} (octal : isOctalDigit digit = true) :
    digitValue digit < 8 := by
  have range := isOctalDigit_iff.mp octal
  unfold digitValue
  split_ifs <;> omega

theorem digitValue_lt_of_isHexDigit {digit : Char} (hex : isHexDigit digit = true) :
    digitValue digit < 16 := by
  have range := isHexDigit_iff.mp hex
  unfold digitValue
  split_ifs <;> omega

theorem numberOf_append_singleton (base : Nat) (digits : List Char) (digit : Char) :
    numberOf base (digits ++ [digit]) = numberOf base digits * base + digitValue digit := by
  unfold numberOf
  rw [List.foldl_append]
  rfl

/-- A number is less than the power of the base that has one digit more. -/
theorem numberOf_lt {base : Nat} {digits : List Char}
    (below : ∀ digit ∈ digits, digitValue digit < base) :
    numberOf base digits < base ^ digits.length := by
  induction digits using List.reverseRecOn with
  | nil => exact Nat.one_pos
  | append_singleton digits digit ih =>
      have last := below digit (List.mem_append_right _ (List.mem_singleton_self _))
      have front := ih fun other among => below other (List.mem_append_left _ among)
      rw [numberOf_append_singleton, List.length_append, List.length_singleton, Nat.pow_succ]
      calc numberOf base digits * base + digitValue digit
          < numberOf base digits * base + base := Nat.add_lt_add_left last _
        _ = (numberOf base digits + 1) * base := (Nat.succ_mul _ _).symm
        _ ≤ base ^ digits.length * base := Nat.mul_le_mul_right _ front

namespace Script

/-- What a string literal of the source is made of. -/
inductive Element where
  /-- a letter that stands for itself -/
  | plain (letter : Char)
  /-- a backslash before a letter: a control character, or the letter itself -/
  | escaped (letter : Char)
  /-- a backslash before octal digits -/
  | octal (digits : List Char)
  /-- a backslash before `x` and two hexadecimal digits -/
  | hex (first second : Char)
  /-- a backslash before `u` and four hexadecimal digits -/
  | unit (digits : List Char)
  /-- a backslash before `u` and the digits of a code point in curly brackets -/
  | point (digits : List Char)
  /-- a backslash at the end of a line -/
  | continued (ending : List Char)
deriving DecidableEq, Repr

namespace Element

def letters : Element → List Char
  | .plain letter => [letter]
  | .escaped letter => ['\\', letter]
  | .octal digits => '\\' :: digits
  | .hex first second => ['\\', 'x', first, second]
  | .unit digits => '\\' :: 'u' :: digits
  | .point digits => '\\' :: 'u' :: '\x7b' :: (digits ++ ['\x7d'])
  | .continued ending => '\\' :: ending

def controls : List (Char × Nat) :=
  [('b', 0x08), ('t', 0x09), ('n', 0x0A), ('v', 0x0B), ('f', 0x0C), ('r', 0x0D)]

def escapedCode (letter : Char) : Nat :=
  (controls.lookup letter).getD letter.toNat

/-- The code point or the single code unit that an element spells, if it spells anything. -/
def code? : Element → Option Nat
  | .plain letter => some letter.toNat
  | .escaped letter => some (escapedCode letter)
  | .octal digits => some (numberOf 8 digits)
  | .hex first second => some (numberOf 16 [first, second])
  | .unit digits => some (numberOf 16 digits)
  | .point digits => some (numberOf 16 digits)
  | .continued _ => none

def units (element : Element) : List Nat :=
  element.code?.elim [] Utf16.encode

end Element

def lineEnds : List Char :=
  ['\n', '\r', Char.ofNat 0x2028, Char.ofNat 0x2029]

def startsOctal (letters : List Char) : Bool :=
  letters.head?.any isOctalDigit

/-- Whether an element may stand between quotes before some letters. Each escape takes as
many letters as it can: an octal number ends before a letter that is no octal digit, or
before it passes 255. -/
def Element.Fits (quote : Char) (rest : List Char) : Element → Prop
  | .plain letter => letter ≠ quote ∧ letter ≠ '\\' ∧ letter ≠ '\n' ∧ letter ≠ '\r'
  | .escaped letter =>
      isOctalDigit letter = false ∧ letter ≠ 'x' ∧ letter ≠ 'u' ∧ letter ∉ lineEnds
  | .octal digits =>
      (∀ digit ∈ digits, isOctalDigit digit = true) ∧ numberOf 8 digits < 256 ∧
        match digits with
        | [_] => startsOctal rest = false
        | [first, _] => '4' ≤ first ∨ startsOctal rest = false
        | [_, _, _] => True
        | _ => False
  | .hex first second => isHexDigit first = true ∧ isHexDigit second = true
  | .unit digits => digits.length = 4 ∧ ∀ digit ∈ digits, isHexDigit digit = true
  | .point digits =>
      digits ≠ [] ∧ (∀ digit ∈ digits, isHexDigit digit = true) ∧ numberOf 16 digits < 0x110000
  | .continued ending =>
      ending = ['\r', '\n'] ∨
        ∃ letter ∈ lineEnds, ending = [letter] ∧ (letter = '\r' → rest.head? ≠ some '\n')

def lettersOf (quote : Char) : List Element → List Char
  | [] => [quote]
  | element :: rest => element.letters ++ lettersOf quote rest

def IsBody (quote : Char) : List Element → Prop
  | [] => True
  | element :: rest => element.Fits quote (lettersOf quote rest) ∧ IsBody quote rest

/-- Whether a text is written as a literal of some elements, which spell another text. -/
structure Spells (quote : Char) (elements : List Element) (raw value : String) : Prop where
  raw : raw = String.ofList (quote :: lettersOf quote elements)
  body : IsBody quote elements
  value : elements.flatMap Element.units = Utf16.units value.toList

/-! ## Bytes of an element -/

namespace Element

/-- The bytes that an element gives by itself. A surrogate gives none, or those of a pair. -/
def Gives (element : Element) (front : List Nat) : Prop :=
  match element.code? with
  | none => front = []
  | some code =>
      IsScalarCode code ∧ front = Utf8.encode code ∨
        ¬ IsScalarCode code ∧
          (front = [] ∨ ∃ whole, 0x10000 ≤ whole ∧ front = Utf8.encode whole)

theorem Gives.eq_encode {element : Element} {front : List Nat} {code : Nat}
    (gives : element.Gives front) (spelled : element.code? = some code)
    (scalar : IsScalarCode code) : front = Utf8.encode code := by
  unfold Gives at gives
  rw [spelled] at gives
  rcases gives with ⟨-, eq⟩ | ⟨other, -⟩
  · exact eq
  · exact absurd scalar other

/-- An escaped letter is a control character or itself. -/
theorem escapedCode_eq (letter : Char) :
    (letter, escapedCode letter) ∈ controls ∨ escapedCode letter = letter.toNat := by
  unfold escapedCode
  cases found : controls.lookup letter with
  | none => exact .inr rfl
  | some code =>
      obtain ⟨front, later, split, -⟩ := List.lookup_eq_some_iff.mp found
      rw [split]
      exact .inl (List.mem_append_right _ (.head _))

theorem isScalarCode_escapedCode (letter : Char) : IsScalarCode (escapedCode letter) := by
  have small : ∀ entry ∈ controls, IsScalarCode entry.2 := by decide
  rcases escapedCode_eq letter with among | eq
  · exact small _ among
  · exact eq ▸ isScalarCode_toNat letter

theorem Fits.octal_lt {quote : Char} {digits rest : List Char}
    (fits : (octal digits).Fits quote rest) : numberOf 8 digits < 8 ^ digits.length :=
  numberOf_lt fun digit among => digitValue_lt_of_isOctalDigit (fits.1 digit among)

theorem Fits.hex_lt {quote first second : Char} {rest : List Char}
    (fits : (hex first second).Fits quote rest) : numberOf 16 [first, second] < 256 := by
  have below : ∀ digit ∈ [first, second], digitValue digit < 16 := by
    simp [digitValue_lt_of_isHexDigit fits.1, digitValue_lt_of_isHexDigit fits.2]
  exact numberOf_lt below

theorem Fits.unit_lt {quote : Char} {digits rest : List Char}
    (fits : (unit digits).Fits quote rest) : numberOf 16 digits < 0x10000 := by
  have below := numberOf_lt fun digit among => digitValue_lt_of_isHexDigit (fits.2 digit among)
  rwa [fits.1] at below

theorem Fits.code_lt {quote : Char} {rest : List Char} {element : Element} {code : Nat}
    (fits : element.Fits quote rest) (spelled : element.code? = some code) : code < 0x110000 := by
  cases element with
  | plain letter => exact Option.some.inj spelled ▸ (isScalarCode_toNat letter).lt
  | escaped letter => exact Option.some.inj spelled ▸ (isScalarCode_escapedCode letter).lt
  | octal digits => exact Option.some.inj spelled ▸ Nat.lt_trans fits.2.1 (by decide)
  | hex first second => exact Option.some.inj spelled ▸ Nat.lt_trans fits.hex_lt (by decide)
  | unit digits => exact Option.some.inj spelled ▸ Nat.lt_trans fits.unit_lt (by decide)
  | point digits => exact Option.some.inj spelled ▸ fits.2.2
  | continued ending => cases spelled

/-- The bytes of some elements begin with those that the first one gives. -/
theorem Fits.exists_front {quote : Char} {rest : List Char} {element : Element}
    (fits : element.Fits quote rest) {waiting : Option Nat} {units bytes : List Nat}
    (read : Utf16.bytes? waiting (element.units ++ units) = some bytes) :
    ∃ front next later, bytes = front ++ later ∧ Utf16.bytes? next units = some later ∧
      element.Gives front := by
  unfold Element.units at read
  unfold Gives
  cases spelled : element.code? with
  | none =>
      rw [spelled] at read
      exact ⟨[], waiting, bytes, rfl, read, rfl⟩
  | some code =>
      rw [spelled] at read
      exact Utf16.bytes?_encode_append (fits.code_lt spelled) read

end Element

/-! ## Plain letters -/

/-- Letters that are no quote and no backslash are plain elements. -/
theorem exists_plain_of_letters {quote : Char} {elements : List Element} {front later : List Char}
    (split : lettersOf quote elements = front ++ later)
    (plain : ∀ letter ∈ front, letter ≠ quote ∧ letter ≠ '\\') :
    ∃ rest, elements = front.map .plain ++ rest ∧ lettersOf quote rest = later := by
  induction front generalizing elements with
  | nil => exact ⟨elements, rfl, split⟩
  | cons letter front ih =>
      obtain ⟨notQuote, notBackslash⟩ := plain letter (.head _)
      have first {other : Char} {letters : List Char}
          (split : other :: letters = letter :: front ++ later) :
          other = letter ∧ letters = front ++ later :=
        List.cons.inj split
      match elements with
      | [] => exact absurd (first split).1.symm notQuote
      | .plain other :: rest =>
          obtain ⟨rfl, remaining⟩ := first split
          obtain ⟨rest, rfl, follow⟩ :=
            ih remaining fun other among => plain other (.tail _ among)
          exact ⟨rest, rfl, follow⟩
      | .escaped _ :: _ | .octal _ :: _ | .hex .. :: _ | .unit _ :: _ | .point _ :: _
      | .continued _ :: _ => exact absurd (first split).1.symm notBackslash

theorem IsBody.later {quote : Char} {front later : List Element}
    (body : IsBody quote (front ++ later)) : IsBody quote later := by
  induction front with
  | nil => exact body
  | cons element front ih => exact ih body.2

/-- The bytes of plain letters stand before those of what follows. -/
theorem exists_bytes_of_plain {letters : List Char} {waiting : Option Nat}
    {units bytes : List Nat}
    (read : Utf16.bytes? waiting ((letters.map Element.plain).flatMap Element.units ++ units) =
      some bytes) :
    ∃ next later, bytes = Utf8.bytes letters ++ later ∧ Utf16.bytes? next units = some later := by
  induction letters generalizing waiting bytes with
  | nil => exact ⟨waiting, bytes, rfl, read⟩
  | cons letter rest ih =>
      rw [List.map_cons, List.flatMap_cons, List.append_assoc] at read
      have scalar := isScalarCode_toNat letter
      obtain ⟨front, next, later, rfl, follow, gives⟩ :=
        Utf16.bytes?_encode_append scalar.lt read
      obtain ⟨next, later, rfl, found⟩ := ih follow
      have given : (Element.plain letter).Gives front := gives
      have eq := given.eq_encode rfl scalar
      exact ⟨next, later, by rw [eq, Utf8.bytes_cons, List.append_assoc], found⟩

end Script

end PhpRendering
