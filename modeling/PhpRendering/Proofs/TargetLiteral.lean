import PhpRendering.Proofs.ScriptLiteral

/-!
# String literals of the target

A literal of the target is read step by step into bytes. Between single quotes only the quote
and the backslash are escaped. Between double quotes there are escapes with values of their
own, and a dollar sign may open an interpolation, where reading stops. The elements of a
literal of the source that the target reads in the same way are the shared ones.
-/

namespace PhpRendering

open Script

namespace Target

/-! ## Reading a literal -/

inductive Quotation where
  | single
  | double
deriving DecidableEq, Repr

def startsName (letter : Char) : Bool :=
  letter.isAlpha || letter == '_' || 0x80 ≤ letter.toNat

/-- Whether a letter before others opens an interpolation: a dollar sign before a name or
before a bracket, or a bracket before a dollar sign. -/
def opensInterpolation (letter : Char) (rest : List Char) : Bool :=
  letter == '$' && rest.head?.any (fun next => next == '\x7b' || startsName next) ||
    letter == '\x7b' && rest.head? == some '$'

abbrev Step :=
  List Char → Option (List Nat × List Char)

/-- Between single quotes a backslash hides a backslash or a quote, and else it stands for
itself. -/
def readSingle : Step
  | [] => none
  | letter :: rest =>
      if letter = '\'' then none
      else if letter = '\\' then
        match rest with
        | [] => none
        | next :: later =>
            if next = '\\' ∨ next = '\'' then some (Utf8.encode next.toNat, later)
            else some ([0x5C], rest)
      else some (Utf8.encode letter.toNat, rest)

/-- The letters that stand for another one, or for a sign of the language, behind a
backslash. -/
def controls : List (Char × Nat) :=
  [('n', 0x0A), ('t', 0x09), ('r', 0x0D), ('v', 0x0B), ('e', 0x1B), ('f', 0x0C), ('\\', 0x5C),
    ('$', 0x24), ('"', 0x22)]

/-- An octal number takes up to three digits and is cut to a byte. -/
def readOctal (letters : List Char) : List Nat × List Char :=
  let digits := (letters.take 3).takeWhile isOctalDigit
  ([numberOf 8 digits % 256], letters.drop digits.length)

/-- A hexadecimal number takes up to two digits. Without one the mark stands for itself. -/
def readHex (mark : Char) (letters : List Char) : List Nat × List Char :=
  let digits := (letters.take 2).takeWhile isHexDigit
  if digits = [] then ([0x5C, mark.toNat], letters)
  else ([numberOf 16 digits], letters.drop digits.length)

/-- A code point stands in brackets. Without a bracket the mark stands for itself. -/
def readPoint : Step
  | '\x7b' :: letters =>
      let digits := letters.takeWhile isHexDigit
      if digits ≠ [] ∧ numberOf 16 digits < 0x110000 ∧
          (letters.drop digits.length).head? = some '\x7d' then
        some (Utf8.encode (numberOf 16 digits), letters.drop (digits.length + 1))
      else none
  | letters => some ([0x5C, 0x75], letters)

def readEscape (letter : Char) (rest : List Char) : Option (List Nat × List Char) :=
  match controls.lookup letter with
  | some code => some ([code], rest)
  | none =>
      if isOctalDigit letter then some (readOctal (letter :: rest))
      else if letter = 'x' ∨ letter = 'X' then some (readHex letter rest)
      else if letter = 'u' then readPoint rest
      else some (0x5C :: Utf8.encode letter.toNat, rest)

/-- Between double quotes nothing is read where an interpolation opens. -/
def readDouble : Step
  | [] => none
  | letter :: rest =>
      if letter = '"' ∨ opensInterpolation letter rest then none
      else if letter = '\\' then
        match rest with
        | [] => none
        | next :: later => readEscape next later
      else some (Utf8.encode letter.toNat, rest)

namespace Quotation

def quote : Quotation → Char
  | .single => '\''
  | .double => '"'

def step : Quotation → Step
  | .single => readSingle
  | .double => readDouble

/-- The letters behind an opening quote up to the closing one, which is the last of them,
and the bytes they are read as. -/
inductive Reads (quotation : Quotation) : List Char → List Nat → Prop where
  | closed : Reads quotation [quotation.quote] []
  | next {letters rest : List Char} {bytes later : List Nat}
      (read : quotation.step letters = some (bytes, rest)) (follow : Reads quotation rest later) :
      Reads quotation letters (bytes ++ later)

end Quotation

def IsLiteralOf (text value : String) : Prop :=
  ∃ (quotation : Quotation) (letters : List Char),
    text.toList = quotation.quote :: letters ∧
      quotation.Reads letters (Utf8.bytes value.toList)

/-! ## Shared elements -/

namespace Quotation

/-- Whether the target reads an element of a literal of the source as the source does, where
some letters follow. -/
def Shares (quotation : Quotation) (rest : List Char) (element : Element) : Prop :=
  match quotation, element with
  | .single, .plain _ => True
  | .single, .escaped letter => letter = '\\' ∨ letter = '\''
  | .double, .plain letter => opensInterpolation letter rest = false
  | .double, .escaped letter => letter ∈ ['n', 'r', 't', 'v', 'f', '\\', '"', '$']
  | .double, .octal digits =>
      numberOf 8 digits < 0x80 ∧ (digits.length = 3 ∨ startsOctal rest = false)
  | .double, .hex first second => numberOf 16 [first, second] < 0x80
  | .double, .point digits => IsScalarCode (numberOf 16 digits)
  | _, _ => False

/-- Whether the target reads all elements of a literal of the source as the source does. -/
def SharesAll (quotation : Quotation) : List Element → Prop
  | [] => True
  | element :: rest =>
      quotation.Shares (lettersOf quotation.quote rest) element ∧ quotation.SharesAll rest

end Quotation

theorem readEscape_octal {digit : Char} (octal : isOctalDigit digit = true) (rest : List Char) :
    readEscape digit rest = some (readOctal (digit :: rest)) := by
  have letters : ∀ entry ∈ controls, isOctalDigit entry.1 = false := by decide
  have other : controls.lookup digit = none := by
    refine List.lookup_eq_none_iff.mpr fun entry among => bne_iff_ne.mpr ?_
    rintro rfl
    cases octal.symm.trans (letters entry among)
  simp only [readEscape, other, octal, if_true]

/-- The digits of a number are taken up to its end, which is a limit or another letter. -/
theorem takeWhile_take_append {isDigit : Char → Bool} {digits rest : List Char} {limit : Nat}
    (all : ∀ digit ∈ digits, isDigit digit = true) (within : digits.length ≤ limit)
    (ends : digits.length = limit ∨ rest.head?.any isDigit = false) :
    ((digits ++ rest).take limit).takeWhile isDigit = digits := by
  induction digits generalizing limit with
  | nil =>
      rcases ends with rfl | other
      · rfl
      · cases limit with
        | zero => rfl
        | succ limit =>
            cases rest with
            | nil => rfl
            | cons letter rest => exact List.takeWhile_cons_of_neg (Bool.eq_false_iff.mp other)
  | cons digit digits ih =>
      obtain ⟨limit, rfl⟩ := Nat.exists_eq_add_of_lt (Nat.lt_of_lt_of_le (Nat.succ_pos _) within)
      rw [Nat.zero_add] at within ends ⊢
      rw [List.cons_append, List.take_succ_cons, List.takeWhile_cons_of_pos (all _ (.head _)),
        ih (fun other among => all other (.tail _ among)) (Nat.le_of_succ_le_succ within)
          (ends.imp_left Nat.succ.inj)]

/-- The octal digits of an element are all taken, and no more. -/
theorem readOctal_digits {quote : Char} {digits rest : List Char}
    (fits : (Element.octal digits).Fits quote rest)
    (ends : digits.length = 3 ∨ startsOctal rest = false) :
    readOctal (digits ++ rest) = ([numberOf 8 digits], rest) := by
  obtain ⟨octal, small, shape⟩ := fits
  have short : digits.length ≤ 3 := by
    match digits, shape with
    | [_], _ | [_, _], _ | [_, _, _], _ => simp
  have taken := takeWhile_take_append octal short ends
  simp only [readOctal, taken, Nat.mod_eq_of_lt small, List.drop_left]

theorem readDouble_octal {quote : Char} {digits rest : List Char}
    (fits : (Element.octal digits).Fits quote rest) :
    readDouble ((Element.octal digits).letters ++ rest) = some (readOctal (digits ++ rest)) := by
  match digits, fits.1, fits.2.2 with
  | digit :: digits, octal, _ => exact readEscape_octal (octal digit (.head _)) (digits ++ rest)

theorem readDouble_hex {quote first second : Char} {rest : List Char}
    (fits : (Element.hex first second).Fits quote rest) :
    readDouble ((Element.hex first second).letters ++ rest) =
      some ([numberOf 16 [first, second]], rest) := by
  obtain ⟨left, right⟩ := fits
  have read : readHex 'x' (first :: second :: rest) = ([numberOf 16 [first, second]], rest) := by
    simp [readHex, left, right]
  exact congrArg some read

theorem readDouble_point {quote : Char} {digits rest : List Char}
    (fits : (Element.point digits).Fits quote rest) :
    readDouble ((Element.point digits).letters ++ rest) =
      some (Utf8.encode (numberOf 16 digits), rest) := by
  obtain ⟨held, hex, small⟩ := fits
  have shape : (Element.point digits).letters ++ rest =
      '\\' :: 'u' :: '\x7b' :: (digits ++ '\x7d' :: rest) := by
    simp [Element.letters]
  have taken : (digits ++ '\x7d' :: rest).takeWhile isHexDigit = digits := by
    rw [List.takeWhile_append_of_pos hex, List.takeWhile_cons_of_neg (by decide),
      List.append_nil]
  rw [shape]
  change readPoint ('\x7b' :: (digits ++ '\x7d' :: rest)) = _
  simp [readPoint, taken, held, small]

namespace Quotation

/-- An element that is shared is read in one step, as the code point that it spells. -/
theorem step_of_shares {quotation : Quotation} {element : Element} {rest : List Char}
    (fits : element.Fits quotation.quote rest) (shares : quotation.Shares rest element) :
    ∃ code, IsScalarCode code ∧ element.code? = some code ∧
      quotation.step (element.letters ++ rest) = some (Utf8.encode code, rest) := by
  cases quotation with
  | single =>
      cases element with
      | plain letter =>
          obtain ⟨notQuote, notBackslash, -⟩ := fits
          refine ⟨_, isScalarCode_toNat letter, rfl, ?_⟩
          exact (if_neg notQuote).trans (if_neg notBackslash)
      | escaped letter => rcases shares with rfl | rfl <;> exact ⟨_, by decide, rfl, rfl⟩
      | octal | hex | unit | point | continued => cases shares
  | double =>
      cases element with
      | plain letter =>
          obtain ⟨notQuote, notBackslash, -⟩ := fits
          refine ⟨_, isScalarCode_toNat letter, rfl, ?_⟩
          have calm : ¬ (letter = '"' ∨ opensInterpolation letter rest) := by
            rintro (eq | opens)
            · exact notQuote eq
            · cases shares.symm.trans opens
          exact (if_neg calm).trans (if_neg notBackslash)
      | escaped letter =>
          simp only [Shares, List.mem_cons, List.not_mem_nil, or_false] at shares
          rcases shares with rfl | rfl | rfl | rfl | rfl | rfl | rfl | rfl <;>
            exact ⟨_, by decide, rfl, rfl⟩
      | octal digits =>
          obtain ⟨small, ends⟩ := shares
          have ascii : Utf8.encode (numberOf 8 digits) = [numberOf 8 digits] := if_pos small
          refine ⟨_, .inl (Nat.lt_trans small (by decide)), rfl, ?_⟩
          rw [ascii, ← readOctal_digits fits ends]
          exact readDouble_octal fits
      | hex first second =>
          have ascii : Utf8.encode (numberOf 16 [first, second]) = [numberOf 16 [first, second]] :=
            if_pos shares
          refine ⟨_, .inl (Nat.lt_trans shares (by decide)), rfl, ?_⟩
          rw [ascii]
          exact readDouble_hex fits
      | point digits => exact ⟨_, shares, rfl, readDouble_point fits⟩
      | unit | continued => cases shares

/-- A literal of the source with shared elements only is read as the source reads it. -/
theorem SharesAll.reads {quotation : Quotation} {elements : List Element}
    (body : IsBody quotation.quote elements) (shares : quotation.SharesAll elements) :
    ∃ bytes, Utf16.bytes? none (elements.flatMap Element.units) = some bytes ∧
      quotation.Reads (lettersOf quotation.quote elements) bytes := by
  induction elements with
  | nil => exact ⟨[], rfl, .closed⟩
  | cons element rest ih =>
      obtain ⟨later, known, follow⟩ := ih body.2 shares.2
      obtain ⟨code, scalar, spelled, read⟩ := step_of_shares body.1 shares.1
      refine ⟨Utf8.encode code ++ later, ?_, .next read follow⟩
      rw [List.flatMap_cons, Element.units, spelled, Option.elim_some,
        Utf16.bytes?_encode scalar, known, Option.map_some]

end Quotation

end Target

end PhpRendering
