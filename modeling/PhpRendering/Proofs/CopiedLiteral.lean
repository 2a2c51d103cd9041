import Mathlib.Data.Bool.AllAny
import Mathlib.Data.List.TakeWhile
import PhpRendering.Proofs.LiteralWeight
import PhpRendering.Proofs.Written

/-!
# Copied literals

A literal with a spelling of its own is written as it is spelled. So the target reads it as the
source does if and only if it shares all elements of the literal: where one is not shared, the
target reads more than the source spells, and nothing behind it takes that back.
-/

namespace PhpRendering

open Script

namespace Target

namespace Quotation

variable {quotation : Quotation}

/-! ## Reading on -/

/-- Nothing is read at the closing quote. -/
theorem step_quote (quotation : Quotation) : quotation.step [quotation.quote] = none := by
  cases quotation <;> rfl

theorem Reads.of_step {letters rest : List Char} {read target : List Nat}
    (reads : quotation.Reads letters target) (step : quotation.step letters = some (read, rest)) :
    ∃ later, target = read ++ later ∧ quotation.Reads rest later := by
  cases reads with
  | closed => cases (step_quote quotation).symm.trans step
  | next known follow =>
      cases known.symm.trans step
      exact ⟨_, rfl, follow⟩

theorem Reads.eq_nil {target : List Nat} (reads : quotation.Reads [quotation.quote] target) :
    target = [] := by
  generalize opened : [quotation.quote] = letters at reads
  cases reads with
  | closed => rfl
  | next known _ => cases (opened ▸ step_quote quotation).symm.trans known

theorem Reads.step_ne_none {letter : Char} {rest : List Char} {target : List Nat}
    (reads : quotation.Reads (letter :: rest) target) (other : letter ≠ quotation.quote) :
    quotation.step (letter :: rest) ≠ none := by
  generalize shape : letter :: rest = letters at reads ⊢
  cases reads with
  | closed => exact absurd (List.cons.inj shape).1 other
  | next known _ =>
      intro none
      rw [known] at none
      cases none

/-- Letters that stand for themselves wherever they are read. -/
theorem Reads.of_calm {letters rest : List Char} {target : List Nat}
    (calm : ∀ letter ∈ letters, ∀ later,
      quotation.step (letter :: later) = some (Utf8.encode letter.toNat, later))
    (reads : quotation.Reads (letters ++ rest) target) :
    ∃ later, target = Utf8.bytes letters ++ later ∧ quotation.Reads rest later := by
  induction letters generalizing target with
  | nil => exact ⟨target, rfl, reads⟩
  | cons letter letters ih =>
      obtain ⟨later, rfl, follow⟩ := reads.of_step (calm letter (.head _) _)
      obtain ⟨more, rfl, ends⟩ := ih (fun other among => calm other (.tail _ among)) follow
      exact ⟨more, by rw [Utf8.bytes_cons, List.append_assoc], ends⟩

/-- A place behind some elements of a literal, with the bytes that the source spells from there
and those that the target reads. -/
structure ReadsOn (quotation : Quotation) (elements : List Element) (source target : List Nat) :
    Prop where
  body : IsBody quotation.quote elements
  source : ∃ waiting, Utf16.bytes? waiting (elements.flatMap Element.units) = some source
  target : quotation.Reads (lettersOf quotation.quote elements) target

/-- Whether the target reads something heavier than the source spells, up to a place from which
both read on. -/
def Gains (quotation : Quotation) (rest : List Element) (source target : List Nat) : Prop :=
  ∃ (later : List Element) (front read source' target' : List Nat),
    later.length ≤ rest.length ∧ quotation.ReadsOn later source' target' ∧
      source = front ++ source' ∧ target = read ++ target' ∧
      quotation.weight front < quotation.weight read

variable {element : Element} {rest : List Element} {source target : List Nat}

theorem ReadsOn.exists_front (on : quotation.ReadsOn (element :: rest) source target) :
    ∃ front next later, source = front ++ later ∧
      Utf16.bytes? next (rest.flatMap Element.units) = some later ∧ element.Gives front := by
  obtain ⟨waiting, read⟩ := on.source
  exact on.body.1.exists_front read

/-- An element that is shared adds the same bytes to both. -/
theorem ReadsOn.of_shares (on : quotation.ReadsOn (element :: rest) source target)
    (shares : quotation.Shares (lettersOf quotation.quote rest) element) :
    ∃ front source' target', source = front ++ source' ∧ target = front ++ target' ∧
      quotation.ReadsOn rest source' target' := by
  obtain ⟨code, scalar, spelled, step⟩ := step_of_shares on.body.1 shares
  obtain ⟨front, next, later, rfl, found, gives⟩ := on.exists_front
  obtain ⟨target', rfl, follow⟩ := on.target.of_step step
  cases gives.eq_encode spelled scalar
  exact ⟨_, later, target', rfl, rfl, on.body.2, ⟨next, found⟩, follow⟩

/-- An element that is read, with some plain letters behind it, as something heavier than they
give. -/
theorem ReadsOn.gains_with {letters : List Char} {later : List Element}
    (on : quotation.ReadsOn (element :: (letters.map .plain ++ later)) source target)
    {read target' : List Nat} (split : target = read ++ target')
    (follow : quotation.Reads (lettersOf quotation.quote later) target')
    (heavier : ∀ front, element.Gives front →
      quotation.weight (front ++ Utf8.bytes letters) < quotation.weight read) :
    quotation.Gains (letters.map .plain ++ later) source target := by
  obtain ⟨front, next, remaining, rfl, found, gives⟩ := on.exists_front
  rw [List.flatMap_append] at found
  obtain ⟨next, source', rfl, ends⟩ := exists_bytes_of_plain found
  refine ⟨later, front ++ Utf8.bytes letters, read, source', target', ?_,
    ⟨on.body.2.later, ⟨next, ends⟩, follow⟩, (List.append_assoc ..).symm, split,
    heavier front gives⟩
  rw [List.length_append]
  exact Nat.le_add_left _ _

/-- An element that is read by itself as something heavier than it gives. -/
theorem ReadsOn.gains (on : quotation.ReadsOn (element :: rest) source target)
    {read target' : List Nat} (split : target = read ++ target')
    (follow : quotation.Reads (lettersOf quotation.quote rest) target')
    (heavier : ∀ front, element.Gives front → quotation.weight front < quotation.weight read) :
    quotation.Gains rest source target := by
  have alone (front : List Nat) : front ++ Utf8.bytes [] = front := List.append_nil front
  have on' : quotation.ReadsOn (element :: (([] : List Char).map .plain ++ rest)) source target :=
    on
  refine on'.gains_with split follow fun front gives => ?_
  rw [alone]
  exact heavier front gives

/-- No element gives more than the heaviest code point. -/
theorem weight_le_of_gives {bound : Int} (positive : 0 ≤ bound)
    (most : ∀ code, quotation.weight (Utf8.encode code) ≤ bound) {front : List Nat}
    (gives : element.Gives front) : quotation.weight front ≤ bound := by
  unfold Element.Gives at gives
  cases spelled : element.code? with
  | none =>
      rw [spelled] at gives
      exact gives ▸ positive
  | some code =>
      rw [spelled] at gives
      rcases gives with ⟨-, rfl⟩ | ⟨-, rfl | ⟨whole, -, rfl⟩⟩
      · exact most code
      · exact positive
      · exact most whole

/-! ## Between single quotes -/

theorem single_calm {letter : Char} (other : letter ≠ '\'' ∧ letter ≠ '\\') (later : List Char) :
    single.step (letter :: later) = some (Utf8.encode letter.toNat, later) :=
  (if_neg other.1).trans (if_neg other.2)

/-- An escape that hides neither a backslash nor a quote is read letter by letter. -/
theorem Reads.of_single_backslash {letter : Char} {letters rest : List Char} {target : List Nat}
    (calm : ∀ other ∈ letter :: letters, other ≠ '\'' ∧ other ≠ '\\')
    (reads : single.Reads ('\\' :: letter :: letters ++ rest) target) :
    ∃ later, target = 0x5C :: Utf8.bytes (letter :: letters) ++ later ∧
      single.Reads rest later := by
  obtain ⟨notQuote, notBackslash⟩ := calm letter (.head _)
  have hides : ¬ (letter = '\\' ∨ letter = '\'') := by simp [notQuote, notBackslash]
  have step : single.step ('\\' :: letter :: letters ++ rest) =
      some ([0x5C], letter :: letters ++ rest) := if_neg hides
  obtain ⟨later, rfl, follow⟩ := reads.of_step step
  obtain ⟨more, rfl, ends⟩ := follow.of_calm fun other among => single_calm (calm other among)
  exact ⟨more, rfl, ends⟩

theorem single_weight_backslash (letters : List Char) :
    (letters.length : Int) + 1 ≤ single.weight (0x5C :: Utf8.bytes letters) := by
  have long := single_weight_bytes letters
  rw [weight_cons]
  change _ ≤ 1 + _
  omega

theorem single_weight_le_of_gives {element : Element} {front : List Nat}
    (gives : element.Gives front) : single.weight front ≤ 4 :=
  weight_le_of_gives (by decide) (fun code => (single_weight_encode code).2.1) gives

/-- An element that is a backslash before other letters than backslashes and quotes. It gives
fewer bytes than it has letters. -/
def GivesLess (element : Element) : Prop :=
  ∃ letter letters, element.letters = '\\' :: letter :: letters ∧
    (∀ among ∈ letter :: letters, among ≠ '\'' ∧ among ≠ '\\') ∧
    ∀ front, element.Gives front →
      single.weight front < single.weight (0x5C :: Utf8.bytes (letter :: letters))

theorem calm_of_isHexDigit {digit : Char} (hex : isHexDigit digit = true) :
    digit ≠ '\'' ∧ digit ≠ '\\' :=
  ⟨ne_of_isHexDigit hex (by decide), ne_of_isHexDigit hex (by decide)⟩

theorem escaped_givesLess {letter : Char} (other : letter ≠ '\\' ∧ letter ≠ '\'') :
    GivesLess (.escaped letter) := by
  refine ⟨letter, [], rfl, by simp [other], fun front gives => ?_⟩
  have bare : single.weight (0x5C :: Utf8.bytes [letter]) =
      1 + single.weight (Utf8.encode letter.toNat) := by
    rw [weight_cons, Utf8.bytes_cons, weight_append]
    exact congrArg _ (Int.add_zero _)
  rw [gives.eq_encode rfl (Element.isScalarCode_escapedCode letter), bare]
  have control : ∀ entry ∈ Element.controls, entry.2 < 0x80 := by decide
  rcases Element.escapedCode_eq letter with among | eq
  · have short := (single_weight_encode (Element.escapedCode letter)).2.2.2 (control _ among)
    have long := (single_weight_encode letter.toNat).1
    omega
  · rw [eq]
    omega

section

variable {rest : List Char}

theorem octal_givesLess {digits : List Char} (fits : (Element.octal digits).Fits '\'' rest) :
    GivesLess (.octal digits) := by
  have below := fits.octal_lt
  obtain ⟨octal, small, shape⟩ := fits
  match digits, shape with
  | first :: rest, _ =>
    refine ⟨first, rest, rfl, fun digit among =>
      calm_of_isHexDigit (isHexDigit_of_isOctalDigit (octal digit among)), fun front gives => ?_⟩
    rw [gives.eq_encode rfl (.inl (Nat.lt_trans small (by decide)))]
    have long := single_weight_backslash (first :: rest)
    have short := (single_weight_encode (numberOf 8 (first :: rest))).2.2
    cases rest with
    | nil =>
        rw [List.length_singleton] at below long
        have one := short.2 (Nat.lt_trans below (by decide))
        omega
    | cons second rest =>
        have two := short.1 (Nat.lt_trans small (by decide))
        rw [List.length_cons, List.length_cons] at long
        omega

theorem hex_givesLess {first second : Char} (fits : (Element.hex first second).Fits '\'' rest) :
    GivesLess (.hex first second) := by
  refine ⟨'x', [first, second], rfl, ?_, fun front gives => ?_⟩
  · simp [calm_of_isHexDigit fits.1, calm_of_isHexDigit fits.2]
  · have long := single_weight_backslash ['x', first, second]
    rw [gives.eq_encode rfl (.inl (Nat.lt_trans fits.hex_lt (by decide)))]
    have short := (single_weight_encode (numberOf 16 [first, second])).2.2.1
      (Nat.lt_trans fits.hex_lt (by decide))
    simp only [List.length_cons, List.length_nil] at long
    omega

theorem unit_givesLess {digits : List Char} (fits : (Element.unit digits).Fits '\'' rest) :
    GivesLess (.unit digits) := by
  refine ⟨'u', digits, rfl, ?_, fun front gives => ?_⟩
  · rintro letter (_ | ⟨_, among⟩)
    · decide
    · exact calm_of_isHexDigit (fits.2 letter among)
  · have long := single_weight_backslash ('u' :: digits)
    have short := single_weight_le_of_gives gives
    rw [List.length_cons, fits.1] at long
    omega

theorem point_givesLess {digits : List Char} (fits : (Element.point digits).Fits '\'' rest) :
    GivesLess (.point digits) := by
  obtain ⟨held, hex, -⟩ := fits
  refine ⟨'u', '\x7b' :: (digits ++ ['\x7d']), rfl, ?_, fun front gives => ?_⟩
  · intro letter among
    simp only [List.mem_cons, List.mem_append, List.not_mem_nil, or_false] at among
    rcases among with rfl | rfl | among | rfl
    · decide
    · decide
    · exact calm_of_isHexDigit (hex letter among)
    · decide
  · have long := single_weight_backslash ('u' :: '\x7b' :: (digits ++ ['\x7d']))
    have short := single_weight_le_of_gives gives
    have some := List.length_pos_iff.mpr held
    rw [List.length_cons, List.length_cons, List.length_append, List.length_singleton] at long
    omega

theorem continued_givesLess {ending : List Char}
    (fits : (Element.continued ending).Fits '\'' rest) : GivesLess (.continued ending) := by
  have ends : ∀ letter ∈ lineEnds, letter ≠ '\'' ∧ letter ≠ '\\' :=
    List.all_iff_forall_prop.mp (by decide)
  rcases fits with rfl | ⟨letter, among, rfl, -⟩
  · refine ⟨'\r', ['\n'], rfl, List.all_iff_forall_prop.mp (by decide), fun front gives => ?_⟩
    have none : front = [] := gives
    exact none ▸ by decide
  · refine ⟨letter, [], rfl, ?_, fun front gives => ?_⟩
    · simpa using ends letter among
    · have none : front = [] := gives
      have long := single_weight_backslash [letter]
      rw [none, weight_nil]
      rw [List.length_singleton] at long
      omega

/-- Every element that is not shared gives less. -/
theorem givesLess_of_not_shares {element : Element} (fits : element.Fits '\'' rest)
    (other : ¬ single.Shares rest element) : GivesLess element := by
  cases element with
  | plain letter => exact absurd trivial other
  | escaped letter => exact escaped_givesLess (not_or.mp other)
  | octal digits => exact octal_givesLess fits
  | hex first second => exact hex_givesLess fits
  | unit digits => exact unit_givesLess fits
  | point digits => exact point_givesLess fits
  | continued ending => exact continued_givesLess fits

end

theorem ReadsOn.single_gains {element : Element} {rest : List Element} {source target : List Nat}
    (on : single.ReadsOn (element :: rest) source target)
    (other : ¬ single.Shares (lettersOf '\'' rest) element) : single.Gains rest source target := by
  obtain ⟨letter, letters, spelled, calm, heavier⟩ := givesLess_of_not_shares on.body.1 other
  have reads := on.target
  unfold lettersOf at reads
  rw [spelled] at reads
  obtain ⟨later, split, follow⟩ := reads.of_single_backslash calm
  exact on.gains split follow heavier

/-! ## Between double quotes -/

theorem double_calm {letter : Char} (other : letter ∉ ['"', '\\', '$', '\x7b'])
    (later : List Char) :
    double.step (letter :: later) = some (Utf8.encode letter.toNat, later) := by
  simp only [List.mem_cons, List.not_mem_nil, or_false, not_or] at other
  obtain ⟨notQuote, notBackslash, notDollar, notBracket⟩ := other
  have calm : opensInterpolation letter later = false := by
    simp [opensInterpolation, notDollar, notBracket]
  have reads : ¬ (letter = '"' ∨ opensInterpolation letter later) := by
    simp [notQuote, calm]
  exact (if_neg reads).trans (if_neg notBackslash)

theorem double_calm_of_isHexDigit {digit : Char} (hex : isHexDigit digit = true)
    (later : List Char) :
    double.step (digit :: later) = some (Utf8.encode digit.toNat, later) := by
  have signs : ∀ sign ∈ ['"', '\\', '$', '\x7b'], isHexDigit sign = false :=
    List.all_iff_forall_prop.mp (by decide)
  exact double_calm (fun among => ne_of_isHexDigit hex (signs _ among) rfl) later

/-- An escape that is none of the target keeps its backslash. -/
theorem double_step_of_unknown {letter : Char} (later : List Char)
    (unknown : letter ∉ controls.map Prod.fst) (notOctal : isOctalDigit letter = false)
    (noMark : letter ∉ ['x', 'X', 'u']) :
    double.step ('\\' :: letter :: later) = some (0x5C :: Utf8.encode letter.toNat, later) := by
  have none : controls.lookup letter = none :=
    List.lookup_eq_none_iff.mpr fun entry among => bne_iff_ne.mpr fun eq =>
      unknown (eq ▸ List.mem_map_of_mem among)
  simp only [List.mem_cons, List.not_mem_nil, or_false, not_or] at noMark
  obtain ⟨notHex, notUpper, notPoint⟩ := noMark
  change readEscape letter later = _
  simp [readEscape, none, notOctal, notHex, notUpper, notPoint]

/-- A number that is no byte of a shorter code point is read as a single byte. -/
theorem double_weight_number {code : Nat} (range : 0x80 ≤ code ∧ code < 0x100) :
    double.weight (Utf8.encode code) < double.weight [code] := by
  have light := escapeWeight_ge code
  rw [double_weight_encode_two ⟨range.1, Nat.lt_trans range.2 (by decide)⟩]
  change -2 < escapeWeight code + 0
  omega

section

variable {rest : List Element} {source target : List Nat}

/-- A hexadecimal mark that is none of the source takes the digits behind it. -/
theorem ReadsOn.upperHex_gains (on : double.ReadsOn (.escaped 'X' :: rest) source target) :
    double.Gains rest source target := by
  obtain ⟨digits, taken⟩ :
      ∃ digits, ((lettersOf '"' rest).take 2).takeWhile isHexDigit = digits := ⟨_, rfl⟩
  have hex : ∀ digit ∈ digits, isHexDigit digit = true := fun digit among =>
    List.mem_takeWhile_imp (taken ▸ among)
  have front : digits <+: lettersOf '"' rest :=
    taken ▸ (List.takeWhile_prefix _).trans (List.take_prefix _ _)
  obtain ⟨later, rfl, remaining⟩ :=
    exists_plain_of_letters (List.prefix_iff_eq_append.mp front).symm fun digit among =>
      ⟨ne_of_isHexDigit (hex digit among) (by decide),
        ne_of_isHexDigit (hex digit among) (by decide)⟩
  have given {front : List Nat} (gives : (Element.escaped 'X').Gives front) :
      double.weight (front ++ Utf8.bytes digits) = -1 - digits.length := by
    rw [gives.eq_encode rfl (by decide), weight_append, double_weight_digits hex]
    rfl
  have step : double.step (lettersOf '"' (.escaped 'X' :: (digits.map .plain ++ later))) =
      some (readHex 'X' (lettersOf '"' (digits.map .plain ++ later))) := rfl
  simp only [readHex, taken, ← remaining] at step
  by_cases none : digits = []
  · rw [if_pos none] at step
    subst none
    obtain ⟨target', split, follow⟩ := on.target.of_step step
    refine on.gains_with split follow fun front gives => ?_
    rw [given gives]
    decide
  · rw [if_neg none] at step
    obtain ⟨target', split, follow⟩ := on.target.of_step step
    refine on.gains_with split (remaining ▸ follow) fun front gives => ?_
    have some := List.length_pos_iff.mpr none
    have light := escapeWeight_ge (numberOf 16 digits)
    rw [given gives]
    change _ < escapeWeight (numberOf 16 digits) + 0
    omega

theorem ReadsOn.escaped_gains {letter : Char}
    (on : double.ReadsOn (.escaped letter :: rest) source target)
    (other : ¬ double.Shares (lettersOf '"' rest) (.escaped letter)) :
    double.Gains rest source target := by
  obtain ⟨notOctal, notHex, notPoint, -⟩ := on.body.1
  by_cases upper : letter = 'X'
  · subst upper
    exact on.upperHex_gains
  by_cases escape : letter = 'e'
  · subst escape
    have step : double.step (lettersOf '"' (.escaped 'e' :: rest)) =
        some ([0x1B], lettersOf '"' rest) := rfl
    obtain ⟨later, split, follow⟩ := on.target.of_step step
    refine on.gains split follow fun front gives => ?_
    rw [gives.eq_encode rfl (by decide)]
    decide
  have unknown : letter ∉ controls.map Prod.fst := by
    simp only [Shares, List.mem_cons, List.not_mem_nil, or_false, not_or] at other
    simp [controls, other, escape]
  have noMark : letter ∉ ['x', 'X', 'u'] := by simp [notHex, upper, notPoint]
  obtain ⟨later, split, follow⟩ :=
    on.target.of_step (double_step_of_unknown _ unknown notOctal noMark)
  refine on.gains split follow fun front gives => ?_
  have heavy : double.weight (0x5C :: Utf8.encode letter.toNat) =
      5 + double.weight (Utf8.encode letter.toNat) := weight_cons _ _
  rw [gives.eq_encode rfl (Element.isScalarCode_escapedCode letter), heavy]
  rcases Element.escapedCode_eq letter with among | eq
  · have letters : ∀ entry ∈ Element.controls, entry.1 ∉ controls.map Prod.fst → entry.1 = 'b' := by
      decide
    have backspace : letter = 'b' := letters _ among unknown
    exact backspace ▸ by decide
  · rw [eq]
    omega

/-- Two digits that are a whole number for the source take a third one along. -/
theorem ReadsOn.twoDigits_gain {first second : Char}
    (on : double.ReadsOn (.octal [first, second] :: rest) source target)
    (more : startsOctal (lettersOf '"' rest) = true) : double.Gains rest source target := by
  obtain ⟨octal, small, shape⟩ := on.body.1
  have firstOctal := octal first (.head _)
  have secondOctal := octal second (.tail _ (.head _))
  have large : '4' ≤ first := shape.resolve_right (more ▸ Bool.noConfusion)
  obtain ⟨third, thirdOctal, letters, starts⟩ :
      ∃ third, isOctalDigit third = true ∧ ∃ letters, lettersOf '"' rest = third :: letters := by
    unfold startsOctal at more
    cases shape : lettersOf '"' rest with
    | nil => simp [shape] at more
    | cons third letters => exact ⟨third, by simpa [shape] using more, letters, rfl⟩
  have thirdHex := isHexDigit_of_isOctalDigit thirdOctal
  have split : lettersOf '"' rest = [third] ++ letters := starts
  obtain ⟨later, rfl, rfl⟩ := exists_plain_of_letters split fun digit among => by
    rw [List.mem_singleton.mp among]
    exact ⟨ne_of_isHexDigit thirdHex (by decide), ne_of_isHexDigit thirdHex (by decide)⟩
  have taken : readOctal (first :: second :: third :: lettersOf '"' later) =
      ([numberOf 8 [first, second, third] % 256], lettersOf '"' later) := by
    simp [readOctal, firstOctal, secondOctal, thirdOctal]
  obtain ⟨target', split, follow⟩ :=
    on.target.of_step ((readDouble_octal on.body.1).trans (congrArg some taken))
  refine on.gains_with split follow fun front gives => ?_
  have range : 32 ≤ numberOf 8 [first, second] ∧ numberOf 8 [first, second] < 64 := by
    have firstRange := isOctalDigit_iff.mp firstOctal
    have secondRange := isOctalDigit_iff.mp secondOctal
    have lower : 0x34 ≤ first.toNat := large
    simp only [numberOf, List.foldl, digitValue]
    split_ifs <;> omega
  have given : double.weight front = -1 := by
    rw [gives.eq_encode rfl (.inl (by omega)), double_weight_encode_one (by omega),
      escapeWeight_eq (by omega)]
  have light := escapeWeight_ge (numberOf 8 [first, second, third] % 256)
  have digit : double.weight (Utf8.bytes [third]) = -1 :=
    double_weight_digits fun digit among => List.mem_singleton.mp among ▸ thirdHex
  rw [weight_append, given, digit]
  change _ < escapeWeight (numberOf 8 [first, second, third] % 256) + 0
  omega

theorem ReadsOn.octal_gains {digits : List Char}
    (on : double.ReadsOn (.octal digits :: rest) source target)
    (other : ¬ double.Shares (lettersOf '"' rest) (.octal digits)) :
    double.Gains rest source target := by
  by_cases ends : digits.length = 3 ∨ startsOctal (lettersOf '"' rest) = false
  · have fits := on.body.1
    have large : 0x80 ≤ numberOf 8 digits := Nat.le_of_not_lt fun small => other ⟨small, ends⟩
    have step := readDouble_octal fits
    rw [readOctal_digits fits ends] at step
    obtain ⟨later, split, follow⟩ := on.target.of_step step
    refine on.gains split follow fun front gives => ?_
    rw [gives.eq_encode rfl (.inl (Nat.lt_trans fits.2.1 (by decide)))]
    exact double_weight_number ⟨large, fits.2.1⟩
  · obtain ⟨short, more⟩ := not_or.mp ends
    match digits, on.body.1.2.2 with
    | [_], alone => exact absurd alone more
    | [_, _], _ => exact on.twoDigits_gain (eq_true_of_ne_false more)
    | [_, _, _], _ => exact absurd rfl short

theorem ReadsOn.hex_gains {first second : Char}
    (on : double.ReadsOn (.hex first second :: rest) source target)
    (other : ¬ double.Shares (lettersOf '"' rest) (.hex first second)) :
    double.Gains rest source target := by
  have fits := on.body.1
  obtain ⟨later, split, follow⟩ := on.target.of_step (readDouble_hex fits)
  refine on.gains split follow fun front gives => ?_
  rw [gives.eq_encode rfl (.inl (Nat.lt_trans fits.hex_lt (by decide)))]
  exact double_weight_number ⟨Nat.le_of_not_lt other, fits.hex_lt⟩

/-- The mark of a code unit stands for itself, and so do its digits. -/
theorem ReadsOn.unit_gains {digits : List Char}
    (on : double.ReadsOn (.unit digits :: rest) source target) :
    double.Gains rest source target := by
  obtain ⟨four, hex⟩ := on.body.1
  have mark : double.step (lettersOf '"' (.unit digits :: rest)) =
      some ([0x5C, 0x75], digits ++ lettersOf '"' rest) := by
    match digits, four, hex with
    | first :: digits, _, hex =>
      have noBracket : first ≠ '\x7b' := ne_of_isHexDigit (hex first (.head _)) (by decide)
      change readPoint (first :: (digits ++ lettersOf '"' rest)) = _
      unfold readPoint
      split
      · next same => exact absurd (List.cons.inj same).1 noBracket
      · rfl
  obtain ⟨later, rfl, follow⟩ := on.target.of_step mark
  obtain ⟨more, rfl, ends⟩ :=
    follow.of_calm fun digit among => double_calm_of_isHexDigit (hex digit among)
  refine on.gains (List.append_assoc ..).symm ends fun front gives => ?_
  have most := weight_le_of_gives (by decide) double_weight_encode_le gives
  have light := double_weight_digits hex
  have heavy : double.weight [0x5C, 0x75] = 10 := rfl
  rw [four] at light
  rw [weight_append, heavy, light]
  omega

theorem ReadsOn.point_gains {digits : List Char}
    (on : double.ReadsOn (.point digits :: rest) source target)
    (other : ¬ double.Shares (lettersOf '"' rest) (.point digits)) :
    double.Gains rest source target := by
  have fits := on.body.1
  have small := fits.2.2
  have surrogate : 0xD800 ≤ numberOf 16 digits ∧ numberOf 16 digits < 0xE000 := by
    simp only [Shares, IsScalarCode] at other
    omega
  obtain ⟨later, split, follow⟩ := on.target.of_step (readDouble_point fits)
  refine on.gains split follow fun front gives => ?_
  rw [double_weight_encode_surrogate surrogate]
  rcases gives with ⟨scalar, -⟩ | ⟨-, rfl | ⟨whole, large, rfl⟩⟩
  · exact absurd scalar other
  · decide
  · rw [double_weight_encode_four large]
    decide

/-- A backslash at the end of a line stays there. -/
theorem ReadsOn.continued_gains {ending : List Char}
    (on : double.ReadsOn (.continued ending :: rest) source target) :
    double.Gains rest source target := by
  have unknown : ∀ letter ∈ lineEnds, letter ∉ controls.map Prod.fst ∧
      isOctalDigit letter = false ∧ letter ∉ ['x', 'X', 'u'] :=
    List.all_iff_forall_prop.mp (by decide)
  have heavy : ∀ letter ∈ lineEnds, 0 < double.weight (0x5C :: Utf8.encode letter.toNat) :=
    List.all_iff_forall_prop.mp (by decide)
  rcases on.body.1 with rfl | ⟨letter, among, rfl, -⟩
  · obtain ⟨later, rfl, follow⟩ := on.target.of_step
      (double_step_of_unknown ('\n' :: lettersOf '"' rest) (by decide) (by decide) (by decide))
    obtain ⟨more, rfl, ends⟩ := follow.of_step (double_calm (by decide) _)
    refine on.gains (List.append_assoc ..).symm ends fun front gives => ?_
    have none : front = [] := gives
    exact none ▸ by decide
  · obtain ⟨notListed, notOctal, noMark⟩ := unknown letter among
    obtain ⟨later, split, follow⟩ :=
      on.target.of_step (double_step_of_unknown _ notListed notOctal noMark)
    refine on.gains split follow fun front gives => ?_
    have none : front = [] := gives
    exact none ▸ heavy letter among

/-- Nothing is read where an interpolation opens. Every other element that is not shared is read
as something heavier. -/
theorem ReadsOn.double_gains {element : Element}
    (on : double.ReadsOn (element :: rest) source target)
    (other : ¬ double.Shares (lettersOf '"' rest) element) :
    double.Gains rest source target := by
  cases element with
  | plain letter =>
      have opens : opensInterpolation letter (lettersOf '"' rest) = true := by
        simpa [Shares] using other
      have stops : double.step (letter :: lettersOf '"' rest) = none := if_pos (.inr opens)
      exact absurd stops (on.target.step_ne_none on.body.1.1)
  | escaped letter => exact on.escaped_gains other
  | octal digits => exact on.octal_gains other
  | hex first second => exact on.hex_gains other
  | unit digits => exact on.unit_gains
  | point digits => exact on.point_gains other
  | continued ending => exact on.continued_gains

end

/-! ## Whole literals -/

/-- What the target reads is what the source spells and all elements are shared, or it is
heavier. -/
theorem ReadsOn.sharesAll_or_lt {elements : List Element} {source target : List Nat}
    (on : quotation.ReadsOn elements source target) :
    source = target ∧ quotation.SharesAll elements ∨
      quotation.weight source < quotation.weight target := by
  induction length : elements.length using Nat.strong_induction_on generalizing elements source
    target with
  | _ length' ih =>
      subst length
      cases elements with
      | nil =>
          obtain ⟨waiting, read⟩ := on.source
          have empty : source = [] := by
            cases waiting with
            | none => exact (Option.some.inj read).symm
            | some lead => cases read
          exact .inl ⟨empty.trans on.target.eq_nil.symm, trivial⟩
      | cons element rest =>
          by_cases shares : quotation.Shares (lettersOf quotation.quote rest) element
          · obtain ⟨front, source', target', rfl, rfl, follow⟩ := on.of_shares shares
            rcases ih rest.length (Nat.lt_succ_self _) follow rfl with ⟨rfl, all⟩ | heavier
            · exact .inl ⟨rfl, shares, all⟩
            · right
              rw [weight_append, weight_append]
              exact Int.add_lt_add_left heavier _
          · have gains : quotation.Gains rest source target := by
              cases quotation with
              | single => exact on.single_gains shares
              | double => exact on.double_gains shares
            obtain ⟨later, front, read, source', target', short, follow, rfl, rfl, heavier⟩ := gains
            right
            rw [weight_append, weight_append]
            rcases ih later.length (Nat.lt_succ_of_le short) follow rfl with ⟨rfl, -⟩ | more
            · exact Int.add_lt_add_right heavier _
            · exact Int.add_lt_add heavier more

/-- The target reads the text that a literal of the source spells if and only if it shares all
elements. -/
theorem isLiteralOf_iff_sharesAll {elements : List Element} {raw value : String}
    (spells : Spells quotation.quote elements raw value) :
    IsLiteralOf raw value ↔ quotation.SharesAll elements := by
  have letters : raw.toList = quotation.quote :: lettersOf quotation.quote elements := by
    rw [spells.raw, String.toList_ofList]
  have spelled : Utf16.bytes? none (elements.flatMap Element.units) =
      some (Utf8.bytes value.toList) := by
    rw [spells.value, Utf16.bytes?_units]
  constructor
  · rintro ⟨other, rest, split, reads⟩
    obtain ⟨opened, rfl⟩ := List.cons.inj (letters.symm.trans split)
    have same : quotation = other := by
      cases quotation <;> cases other <;> first | rfl | cases opened
    subst same
    rcases ReadsOn.sharesAll_or_lt ⟨spells.body, ⟨none, spelled⟩, reads⟩ with ⟨-, all⟩ | heavier
    · exact all
    · exact absurd heavier (Int.lt_irrefl _)
  · intro all
    obtain ⟨bytes, read, reads⟩ := all.reads spells.body
    cases spelled.symm.trans read
    exact ⟨quotation, _, letters, reads⟩

end Quotation

end Target

/-! ## Literals in a tree -/

structure Node.IsSpelledLiteral (node : Node) (quotation : Target.Quotation)
    (elements : List Element) (raw value : String) : Prop where
  kind : node.kind = "Literal"
  copied : node.field? "raw" = some (.text raw)
  held : node.field "value" = .text value
  spells : Spells quotation.quote elements raw value

theorem render_spelled_literal (options : Options) {node : Node} {raw : String}
    (kind : node.kind = "Literal") (held : node.field? "raw" = some (.text raw))
    (position : Position) : (render options (.node node) position).outcome = .ok raw := by
  have known : Construct.ofKind? node.kind = some .literal := by
    rw [kind]
    rfl
  have writes : (Construct.literal.layout options node position).Writes (render options) raw := by
    simp only [Construct.layout, Layout.optional, held]
    exact .word _
  rw [render_of_construct_writes known writes]
  rfl

/-- A literal is written as it is spelled in the source. The target reads its value again if
and only if it shares all elements of the spelling. -/
theorem spelled_literal_keeps_value_iff (options : Options) {node : Node}
    {quotation : Target.Quotation} {elements : List Element} {raw value : String}
    (literal : node.IsSpelledLiteral quotation elements raw value) (position : Position) :
    (render options (.node node) position).outcome = .ok raw ∧
      (Target.IsLiteralOf raw value ↔ quotation.SharesAll elements) :=
  ⟨render_spelled_literal options literal.kind literal.copied position,
    Target.Quotation.isLiteralOf_iff_sharesAll literal.spells⟩

def dollarLiteral : Node :=
  ⟨⟨0, []⟩, "Literal", [("value", .text "$x"), ("raw", .text "\"$x\"")], none⟩

/-- The target reads a variable between the quotes. -/
theorem dollarLiteral_loses_value :
    dollarLiteral.IsSpelledLiteral .double [.plain '$', .plain 'x'] "\"$x\"" "$x" ∧
      (render {} (.node dollarLiteral) {}).outcome = .ok "\"$x\"" ∧
      ¬ Target.IsLiteralOf "\"$x\"" "$x" := by
  have literal : dollarLiteral.IsSpelledLiteral .double [.plain '$', .plain 'x'] "\"$x\"" "$x" :=
    ⟨rfl, rfl, rfl, rfl, ⟨⟨by decide, by decide, by decide, by decide⟩,
      ⟨by decide, by decide, by decide, by decide⟩, trivial⟩, by decide⟩
  obtain ⟨written, kept⟩ := spelled_literal_keeps_value_iff {} literal {}
  refine ⟨literal, written, fun whole => ?_⟩
  have calm : Target.opensInterpolation '$' ['x', '"'] = false := (kept.mp whole).1
  exact absurd calm (by decide)

end PhpRendering
