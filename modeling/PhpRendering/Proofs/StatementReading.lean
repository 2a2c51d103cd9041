import PhpRendering.Proofs.Balance
import PhpRendering.Proofs.Ends

/-!
# Statements read back

A reader of the target takes one statement from the front of a text. A curly bracket opens a
block, the word of a branch or a loop is followed by its header and by a statement, and
everything else goes on to the first semicolon outside curly brackets. What stands between is
not looked at. A text is one statement when the reader takes all of it and nothing of what
follows, whatever that is.
-/

namespace PhpRendering.Text

/-! ## Reading a statement -/

def isBlank (letter : Char) : Bool :=
  letter == ' ' || letter == '\n' || letter == '\t' || letter == '\r'

def isWordLetter (letter : Char) : Bool :=
  letter.isAlphanum || letter == '_' || 0x80 ≤ letter.toNat

def dropBlanks (letters : List Char) : List Char :=
  letters.dropWhile isBlank

/-- The word that some letters begin with. The case of its letters makes no difference. -/
def wordOf (letters : List Char) : List Char :=
  ((dropBlanks letters).takeWhile isWordLetter).map Char.toLower

def afterWord (letters : List Char) : List Char :=
  (dropBlanks letters).dropWhile isWordLetter

def afterClosing : List Bracket → List Char → Option (List Char)
  | [], rest => some rest
  | _ :: _, [] => none
  | innermost :: outer, letter :: rest =>
      match Mark.ofChar? letter with
      | none => afterClosing (innermost :: outer) rest
      | some (.opening bracket) => afterClosing (bracket :: innermost :: outer) rest
      | some (.closing bracket) => if bracket = innermost then afterClosing outer rest else none

def afterGroup (bracket : Bracket) (letters : List Char) : Option (List Char) :=
  match dropBlanks letters with
  | [] => none
  | letter :: rest =>
      if Mark.ofChar? letter = some (.opening bracket) then afterClosing [bracket] rest else none

/-- The letters behind the first semicolon outside curly brackets. -/
def afterEnd : Nat → List Char → Option (List Char)
  | _, [] => none
  | depth, letter :: rest =>
      if letter = ';' ∧ depth = 0 then some rest else afterEnd (depthStep depth letter) rest

def heads : List (List Char) :=
  [['f', 'o', 'r'], ['f', 'o', 'r', 'e', 'a', 'c', 'h'], ['s', 'w', 'i', 't', 'c', 'h'],
    ['w', 'h', 'i', 'l', 'e']]

def continuations : List (List Char) :=
  [['e', 'l', 's', 'e'], ['e', 'l', 's', 'e', 'i', 'f']]

/-- The ways in which a statement begins. -/
inductive Opening where
  | block
  | condition
  | head
  | plain
deriving DecidableEq, Repr

def openingOf (letters : List Char) : Opening :=
  if (dropBlanks letters).head? = some '\x7b' then .block
  else if wordOf letters = ['i', 'f'] then .condition
  else if wordOf letters ∈ heads then .head
  else .plain

/-- The letters that are left when one statement is taken from the front of some letters. The
branch of an alternate belongs to the innermost condition before it. A condition that goes on
with `elseif` is not read. -/
inductive Reads : List Char → List Char → Prop where
  | block {letters rest : List Char} (opens : openingOf letters = .block)
      (closes : afterGroup .curly letters = some rest) : Reads letters rest
  | head {letters middle rest : List Char} (opens : openingOf letters = .head)
      (header : afterGroup .round (afterWord letters) = some middle)
      (body : Reads middle rest) : Reads letters rest
  | condition {letters middle rest : List Char} (opens : openingOf letters = .condition)
      (test : afterGroup .round (afterWord letters) = some middle)
      (consequent : Reads middle rest) (last : wordOf rest ∉ continuations) :
      Reads letters rest
  | alternative {letters middle between rest : List Char} (opens : openingOf letters = .condition)
      (test : afterGroup .round (afterWord letters) = some middle)
      (consequent : Reads middle between) (other : wordOf between = ['e', 'l', 's', 'e'])
      (branch : Reads (afterWord between) rest) : Reads letters rest
  | plain {letters rest : List Char} (opens : openingOf letters = .plain)
      (ends : afterEnd 0 letters = some rest) : Reads letters rest

/-- Whether a text is one whole statement: it is read to its end, apart from blanks, and what
follows is left as it is. -/
def IsOneStatement (text : String) : Prop :=
  ∀ following : List Char, wordOf following ∉ continuations →
    ∃ blanks, blanks.all isBlank = true ∧ Reads (text.toList ++ following) (blanks ++ following)

/-! ## One way to read -/

/-- The word of an alternate continues a condition. -/
theorem mem_continuations {letters : List Char} (other : wordOf letters = ['e', 'l', 's', 'e']) :
    wordOf letters ∈ continuations := by
  rw [other]
  exact List.mem_cons_self ..

namespace Reads

variable {letters middle between rest : List Char}

theorem block_iff (opens : openingOf letters = .block) :
    Reads letters rest ↔ afterGroup .curly letters = some rest := by
  refine ⟨fun reads => ?_, .block opens⟩
  cases reads with
  | block _ closes => exact closes
  | head other | condition other | alternative other | plain other =>
      cases opens.symm.trans other

theorem plain_iff (opens : openingOf letters = .plain) :
    Reads letters rest ↔ afterEnd 0 letters = some rest := by
  refine ⟨fun reads => ?_, .plain opens⟩
  cases reads with
  | plain _ ends => exact ends
  | block other | head other | condition other | alternative other =>
      cases opens.symm.trans other

theorem head_iff (opens : openingOf letters = .head)
    (header : afterGroup .round (afterWord letters) = some middle) :
    Reads letters rest ↔ Reads middle rest := by
  refine ⟨fun reads => ?_, .head opens header⟩
  cases reads with
  | head _ same body =>
      cases header.symm.trans same
      exact body
  | block other | condition other | alternative other | plain other =>
      cases opens.symm.trans other

/-- The reader takes one statement in one way. -/
theorem unique {first second : List Char} (one : Reads letters first)
    (other : Reads letters second) : first = second := by
  induction one generalizing second with
  | block opens closes => exact Option.some.inj (closes.symm.trans ((block_iff opens).mp other))
  | plain opens ends => exact Option.some.inj (ends.symm.trans ((plain_iff opens).mp other))
  | head opens header body ih => exact ih ((head_iff opens header).mp other)
  | condition opens test consequent last ih =>
      cases other with
      | condition _ same body _ =>
          cases test.symm.trans same
          exact ih body
      | alternative _ same body found _ =>
          cases test.symm.trans same
          cases ih body
          exact absurd (mem_continuations found) last
      | block other | head other | plain other => cases opens.symm.trans other
  | alternative opens test consequent found branch ih after =>
      cases other with
      | condition _ same body last =>
          cases test.symm.trans same
          cases ih body
          exact absurd (mem_continuations found) last
      | alternative _ same body _ last =>
          cases test.symm.trans same
          cases ih body
          exact after last
      | block other | head other | plain other => cases opens.symm.trans other

/-- A condition before an alternate is read as far as the branch of the alternate. -/
theorem alternative_iff (opens : openingOf letters = .condition)
    (test : afterGroup .round (afterWord letters) = some middle)
    (consequent : Reads middle between) (other : wordOf between = ['e', 'l', 's', 'e']) :
    Reads letters rest ↔ Reads (afterWord between) rest := by
  refine ⟨fun reads => ?_, .alternative opens test consequent other⟩
  cases reads with
  | condition _ same body last =>
      cases test.symm.trans same
      cases consequent.unique body
      exact absurd (mem_continuations other) last
  | alternative _ same body _ branch =>
      cases test.symm.trans same
      cases consequent.unique body
      exact branch
  | block wrong | head wrong | plain wrong => cases opens.symm.trans wrong

end Reads

/-! ## Blanks -/

theorem dropBlanks_blanks {blanks : List Char} (blank : blanks.all isBlank = true)
    (letters : List Char) : dropBlanks (blanks ++ letters) = dropBlanks letters := by
  induction blanks with
  | nil => rfl
  | cons letter rest ih =>
      rw [List.all_cons, Bool.and_eq_true] at blank
      exact (List.dropWhile_cons_of_pos blank.1).trans (ih blank.2)

/-- What is left of some letters is left of them before others, too. -/
theorem dropWhile_append_of_ends {drops : Char → Bool} {first : List Char}
    (ends : first.dropWhile drops ≠ []) (second : List Char) :
    (first ++ second).dropWhile drops = first.dropWhile drops ++ second := by
  induction first with
  | nil => exact absurd rfl ends
  | cons letter rest ih =>
      rw [List.cons_append, List.dropWhile_cons, List.dropWhile_cons]
      cases inside : drops letter with
      | false => rfl
      | true =>
          rw [List.dropWhile_cons_of_pos inside] at ends
          exact ih ends

/-- A word that ends inside some letters is not continued behind them. -/
theorem takeWhile_append_of_ends {isLetter : Char → Bool} {letters : List Char}
    (ends : letters.dropWhile isLetter ≠ []) (more : List Char) :
    (letters ++ more).takeWhile isLetter = letters.takeWhile isLetter := by
  induction letters with
  | nil => exact absurd rfl ends
  | cons letter rest ih =>
      rw [List.cons_append, List.takeWhile_cons, List.takeWhile_cons]
      cases inside : isLetter letter with
      | false => rfl
      | true =>
          rw [List.dropWhile_cons_of_pos inside] at ends
          exact congrArg (letter :: ·) (ih ends)

theorem wordOf_blanks {blanks : List Char} (blank : blanks.all isBlank = true)
    (letters : List Char) : wordOf (blanks ++ letters) = wordOf letters := by
  unfold wordOf
  rw [dropBlanks_blanks blank]

theorem blanks_isQuiet {text : String} (blank : text.toList.all isBlank = true) :
    IsQuiet text := by
  refine .of_avoids fun letter among marked => ?_
  have isBlank := List.all_eq_true.mp blank letter among
  simp only [blockMarks, List.mem_cons, List.not_mem_nil, or_false] at marked
  rcases marked with rfl | rfl | rfl <;> cases isBlank

theorem blanks_append {first second : String} (before : first.toList.all isBlank = true)
    (after : second.toList.all isBlank = true) : (first ++ second).toList.all isBlank = true := by
  rw [String.toList_append, List.all_append, before, after]
  rfl

theorem exists_blank_endLine (text : String) :
    ∃ last : String, last.toList.all isBlank = true ∧ endLine text = text ++ last := by
  unfold endLine
  split
  · exact ⟨"", rfl, String.append_empty.symm⟩
  · exact ⟨"\n", by decide, rfl⟩

/-- The line of a closing bracket ends behind it. -/
theorem close_append (rest : String) : "\x7d\n" ++ rest = "\x7d" ++ ("\n" ++ rest) :=
  (String.append_assoc : "\x7d" ++ "\n" ++ rest = _)

theorem not_end_of_isBlank {letter : Char} (blank : isBlank letter = true) (depth : Nat) :
    letter ≠ ';' ∧ depthStep depth letter = depth := by
  simp only [isBlank, Bool.or_eq_true, beq_iff_eq] at blank
  rcases blank with ((rfl | rfl) | rfl) | rfl <;> exact ⟨by decide, rfl⟩

/-- A blank before a statement makes no difference. -/
theorem reads_cons_blank {blank : Char} (isBlank : isBlank blank = true)
    {letters rest : List Char} : Reads (blank :: letters) rest ↔ Reads letters rest := by
  have drop : dropBlanks (blank :: letters) = dropBlanks letters :=
    List.dropWhile_cons_of_pos isBlank
  have word : wordOf (blank :: letters) = wordOf letters := by
    unfold wordOf
    rw [drop]
  have after : afterWord (blank :: letters) = afterWord letters := by
    unfold afterWord
    rw [drop]
  have opening : openingOf (blank :: letters) = openingOf letters := by
    unfold openingOf
    rw [drop, word]
  have group (bracket : Bracket) :
      afterGroup bracket (blank :: letters) = afterGroup bracket letters := by
    unfold afterGroup
    rw [drop]
  have ends : afterEnd 0 (blank :: letters) = afterEnd 0 letters := by
    obtain ⟨other, still⟩ := not_end_of_isBlank isBlank 0
    rw [afterEnd, if_neg (other ·.1), still]
  constructor
  · intro reads
    cases reads with
    | block opens closes => exact .block (opening ▸ opens) (group _ ▸ closes)
    | head opens header body => exact .head (opening ▸ opens) (after ▸ header) body
    | condition opens test body last =>
        exact .condition (opening ▸ opens) (after ▸ test) body last
    | alternative opens test body other branch =>
        exact .alternative (opening ▸ opens) (after ▸ test) body other branch
    | plain opens found => exact .plain (opening ▸ opens) (ends ▸ found)
  · intro reads
    cases reads with
    | block opens closes => exact .block (opening.trans opens) ((group _).trans closes)
    | head opens header body => exact .head (opening.trans opens) (after.symm ▸ header) body
    | condition opens test body last =>
        exact .condition (opening.trans opens) (after.symm ▸ test) body last
    | alternative opens test body other branch =>
        exact .alternative (opening.trans opens) (after.symm ▸ test) body other branch
    | plain opens found => exact .plain (opening.trans opens) (ends.trans found)

/-! ## Brackets and ends -/

/-- Letters that change the open brackets further in are passed by. -/
theorem afterClosing_append {letters : List Char} {before after : List Bracket}
    (read : stillOpen before (letters.filterMap Mark.ofChar?) = some after) (bracket : Bracket)
    (outer : List Bracket) (rest : List Char) :
    afterClosing (before ++ bracket :: outer) (letters ++ rest) =
      afterClosing (after ++ bracket :: outer) rest := by
  induction letters generalizing before with
  | nil =>
      cases read
      rfl
  | cons letter letters ih =>
      obtain ⟨innermost, stack, split⟩ :
          ∃ innermost stack, before ++ bracket :: outer = innermost :: stack := by
        cases before <;> exact ⟨_, _, rfl⟩
      rw [split, List.cons_append, afterClosing]
      cases mark : Mark.ofChar? letter with
      | none =>
          rw [List.filterMap_cons_none mark] at read
          rw [← split]
          exact ih read
      | some found =>
          rw [List.filterMap_cons_some mark] at read
          cases found with
          | opening opened =>
              rw [← split]
              exact @ih (opened :: before) read
          | closing closed =>
              cases before with
              | nil => cases read
              | cons last before =>
                  obtain ⟨rfl, rfl⟩ := List.cons.inj split
                  by_cases same : closed = last
                  · simp only [stillOpen, if_pos same] at read
                    simp only [if_pos same]
                    exact ih read
                  · simp only [stillOpen, if_neg same] at read
                    cases read

/-- A balanced text in brackets is passed by, with the bracket that closes behind it. -/
theorem afterClosing_balanced {text : String} (balanced : IsBalanced text) {bracket : Bracket}
    {letter : Char} (closes : Mark.ofChar? letter = some (.closing bracket)) (rest : List Char) :
    afterClosing [bracket] (text.toList ++ letter :: rest) = some rest := by
  have nothing : afterClosing [] rest = some rest := by cases rest <;> rfl
  have passed := afterClosing_append (balanced.stillOpen_eq []) bracket [] (letter :: rest)
  rw [List.nil_append] at passed
  rw [passed, afterClosing, closes]
  exact (if_pos rfl).trans nothing

theorem afterEnd_append {depth : Nat} {letters rest : List Char}
    (found : afterEnd depth letters = some rest) (more : List Char) :
    afterEnd depth (letters ++ more) = some (rest ++ more) := by
  induction letters generalizing depth with
  | nil => cases found
  | cons letter letters ih =>
      rw [List.cons_append, afterEnd]
      rw [afterEnd] at found
      split at found
      · next ends =>
          cases found
          exact if_pos ends
      · next inside => exact (if_neg inside).trans (ih found)

theorem afterEnd_of_none {depth : Nat} {letters : List Char}
    (none : afterEnd depth letters = none) (more : List Char) :
    afterEnd depth (letters ++ more) = afterEnd (depthAfter depth letters) more := by
  induction letters generalizing depth with
  | nil => rfl
  | cons letter letters ih =>
      rw [List.cons_append, afterEnd, depthAfter_cons]
      rw [afterEnd] at none
      split at none
      · cases none
      · next inside => exact (if_neg inside).trans (ih none)

theorem afterEnd_eq_none {depth : Nat} {letters : List Char} (quiet : endsFrom depth letters = 0) :
    afterEnd depth letters = none := by
  induction letters generalizing depth with
  | nil => rfl
  | cons letter letters ih =>
      obtain ⟨first, later⟩ := Nat.add_eq_zero_iff.mp quiet
      have inside : ¬ (letter = ';' ∧ depth = 0) := by
        intro ends
        rw [if_pos ends] at first
        cases first
      rw [afterEnd, if_neg inside]
      exact ih later

/-- Nothing ends in a quiet text. -/
theorem IsQuiet.afterEnd_append {text : String} (quiet : IsQuiet text) (more : List Char) :
    afterEnd 0 (text.toList ++ more) = afterEnd 0 more := by
  rw [afterEnd_of_none (afterEnd_eq_none (quiet.ends 0)), quiet.depth]

/-! ## Whole statements -/

section Whole

variable {word header body test consequent inner ending after : String}

/-- A block is one statement. -/
theorem isOneStatement_block (balanced : IsBalanced inner)
    (blank : ending.toList.all isBlank = true) :
    IsOneStatement ("\x7b" ++ (inner ++ ("\x7d" ++ ending))) := by
  intro following _
  refine ⟨ending.toList, blank, ?_⟩
  simp only [String.toList_append, List.append_assoc]
  exact .block rfl (afterClosing_balanced balanced rfl (ending.toList ++ following))

/-- The letters of a header, a block and what follows it. -/
theorem afterGroup_header (balanced : IsBalanced header) (rest : List Char) :
    afterGroup .round (" (".toList ++ (header.toList ++ (") \x7b\n".toList ++ rest))) =
      some (" \x7b\n".toList ++ rest) :=
  afterClosing_balanced balanced rfl (" \x7b\n".toList ++ rest)

theorem reads_block (balanced : IsBalanced body) (rest : List Char) :
    Reads (" \x7b\n".toList ++ (body.toList ++ ("\x7d".toList ++ rest))) rest :=
  .block rfl (afterClosing_balanced balanced rfl rest)

/-- A loop or a selection is one statement. -/
theorem isOneStatement_head (listed : word.toList ∈ heads) (before : IsBalanced header)
    (inside : IsBalanced body) (blank : ending.toList.all isBlank = true) :
    IsOneStatement
      (word ++ (" (" ++ (header ++ (") \x7b\n" ++ (body ++ ("\x7d" ++ ending)))))) := by
  intro following _
  refine ⟨ending.toList, blank, ?_⟩
  simp only [String.toList_append, List.append_assoc]
  have opens (rest : List Char) : openingOf (word.toList ++ (" (".toList ++ rest)) = .head ∧
      afterWord (word.toList ++ (" (".toList ++ rest)) = " (".toList ++ rest := by
    simp only [heads, List.mem_cons, List.not_mem_nil, or_false] at listed
    rcases listed with same | same | same | same <;> rw [same] <;> exact ⟨rfl, rfl⟩
  refine .head (opens _).1 ?_ (reads_block inside _)
  rw [(opens _).2]
  exact afterGroup_header before _

/-- A condition without an alternate is one statement. -/
theorem isOneStatement_condition (before : IsBalanced test) (inside : IsBalanced consequent)
    (blank : ending.toList.all isBlank = true) :
    IsOneStatement ("if (" ++ (test ++ (") \x7b\n" ++ (consequent ++ ("\x7d" ++ ending))))) := by
  intro following notElse
  refine ⟨ending.toList, blank, ?_⟩
  simp only [String.toList_append, List.append_assoc]
  refine .condition rfl (afterGroup_header before _) (reads_block inside _) ?_
  rwa [wordOf_blanks blank]

/-- A condition with an alternate is one statement if the branch of the alternate is one. -/
theorem isOneStatement_alternative_iff (before : IsBalanced test)
    (inside : IsBalanced consequent) :
    IsOneStatement ("if (" ++ (test ++ (") \x7b\n" ++ (consequent ++ ("\x7d else " ++ after))))) ↔
      IsOneStatement after := by
  have reads (following rest : List Char) :
      Reads (("if (" ++ (test ++ (") \x7b\n" ++ (consequent ++ ("\x7d else " ++ after))))).toList ++
        following) rest ↔ Reads (after.toList ++ following) rest := by
    simp only [String.toList_append, List.append_assoc]
    have body := reads_block inside (" else ".toList ++ (after.toList ++ following))
    have branch : Reads (' ' :: (after.toList ++ following)) rest ↔ _ := reads_cons_blank rfl
    exact (Reads.alternative_iff rfl (afterGroup_header before _) body rfl).trans branch
  unfold IsOneStatement
  simp only [reads]

theorem not_append_eq_nil {blanks : List Char} {letter : Char}
    (same : some [] = some (blanks ++ [letter])) : False := by
  cases blanks <;> cases same

/-- Blanks are no statement. -/
theorem not_isOneStatement_of_blank (blank : ending.toList.all isBlank = true) :
    ¬ IsOneStatement ending := by
  intro one
  obtain ⟨blanks, -, reads⟩ := one [';'] (by decide)
  have drop : dropBlanks (ending.toList ++ [';']) = [';'] := dropBlanks_blanks blank _
  have opens : openingOf (ending.toList ++ [';']) = .plain := by
    unfold openingOf wordOf
    rw [drop]
    rfl
  have found := (Reads.plain_iff opens).mp reads
  rw [(blanks_isQuiet blank).afterEnd_append] at found
  exact not_append_eq_nil found

/-- A text that opens no block, no condition and no loop, whatever follows. -/
structure OpensPlainly (text : String) : Prop where
  opens : openingOf text.toList = .plain
  rest : afterWord text.toList ≠ []

namespace OpensPlainly

variable (plain : OpensPlainly after)
include plain

theorem solid : dropBlanks after.toList ≠ [] := by
  intro none
  refine plain.rest ?_
  unfold afterWord
  rw [none]
  rfl

theorem append (following : List Char) : openingOf (after.toList ++ following) = .plain := by
  have opens := plain.opens
  have drop : dropBlanks (after.toList ++ following) = dropBlanks after.toList ++ following :=
    dropWhile_append_of_ends plain.solid following
  have word : wordOf (after.toList ++ following) = wordOf after.toList := by
    unfold wordOf
    rw [drop, takeWhile_append_of_ends plain.rest]
  unfold openingOf at opens ⊢
  rw [drop, word]
  cases shape : dropBlanks after.toList with
  | nil => exact absurd shape plain.solid
  | cons letter letters =>
      rw [shape] at opens
      exact opens

theorem append_text (more : String) : OpensPlainly (after ++ more) where
  opens := by
    rw [String.toList_append]
    exact plain.append _
  rest := by
    have drop : afterWord (after ++ more).toList = afterWord after.toList ++ more.toList := by
      unfold afterWord dropBlanks
      rw [String.toList_append, dropWhile_append_of_ends plain.solid]
      exact dropWhile_append_of_ends plain.rest _
    rw [drop]
    exact List.append_ne_nil_of_left_ne_nil plain.rest _

/-- Such a text is one statement if its first end is its last letter, apart from blanks. -/
theorem isOneStatement_iff :
    IsOneStatement after ↔
      ∃ blanks, blanks.all isBlank = true ∧ afterEnd 0 after.toList = some blanks := by
  constructor
  · intro one
    obtain ⟨blanks, blank, reads⟩ := one [';'] (by decide)
    refine ⟨blanks, blank, ?_⟩
    have found := (Reads.plain_iff (plain.append _)).mp reads
    cases known : afterEnd 0 after.toList with
    | some rest =>
        rw [afterEnd_append known, Option.some.injEq] at found
        exact congrArg some (List.append_cancel_right found)
    | none =>
        rw [afterEnd_of_none known] at found
        unfold afterEnd at found
        split at found
        · exact (not_append_eq_nil found).elim
        · cases found
  · rintro ⟨blanks, blank, found⟩ following -
    exact ⟨blanks, blank, .plain (plain.append following) (afterEnd_append found following)⟩

end OpensPlainly

/-- A quiet text with a terminator is one statement. -/
theorem isOneStatement_terminated (quiet : IsQuiet inner)
    (plain : OpensPlainly (inner ++ terminator)) (blank : ending.toList.all isBlank = true) :
    IsOneStatement (inner ++ terminator ++ ending) := by
  refine (plain.append_text ending).isOneStatement_iff.mpr ⟨'\n' :: ending.toList, ?_, ?_⟩
  · rw [List.all_cons, blank]
    rfl
  · rw [String.append_assoc, String.toList_append, quiet.afterEnd_append, String.toList_append]
    rfl

/-- The letters behind an end are behind a semicolon. -/
theorem exists_end {depth : Nat} {letters rest : List Char}
    (found : afterEnd depth letters = some rest) : ∃ front, letters = front ++ ';' :: rest := by
  induction letters generalizing depth with
  | nil => cases found
  | cons letter letters ih =>
      rw [afterEnd] at found
      split at found
      · next ends =>
          cases found
          exact ⟨[], by rw [ends.1]; rfl⟩
      · obtain ⟨front, rfl⟩ := ih found
        exact ⟨letter :: front, rfl⟩

/-- The last letter of a text that is no blank. -/
theorem dropBlanks_reversed {front blanks : List Char} {letter : Char}
    (blank : blanks.all isBlank = true) (solid : isBlank letter = false) :
    (dropBlanks (front ++ letter :: blanks).reverse).head? = some letter := by
  have reversed : (front ++ letter :: blanks).reverse =
      blanks.reverse ++ (letter :: front.reverse) := by simp
  rw [reversed, dropBlanks_blanks (by rw [List.all_reverse, blank])]
  unfold dropBlanks
  rw [List.dropWhile_cons_of_neg (by rw [solid]; exact Bool.false_ne_true)]
  rfl

/-- What ends in a bracket and not in a semicolon is no statement of its own. -/
theorem not_isOneStatement_of_closed (plain : OpensPlainly inner)
    (blank : ending.toList.all isBlank = true) :
    ¬ IsOneStatement (inner ++ ("\x7d" ++ ending)) := by
  intro one
  obtain ⟨blanks, blankToo, found⟩ := (plain.append_text _).isOneStatement_iff.mp one
  obtain ⟨front, ended⟩ := exists_end found
  have closed : (inner ++ ("\x7d" ++ ending)).toList = inner.toList ++ '\x7d' :: ending.toList := by
    simp
  have bracket : (dropBlanks (inner.toList ++ '\x7d' :: ending.toList).reverse).head? =
      some '\x7d' := dropBlanks_reversed blank rfl
  have semicolon : (dropBlanks (front ++ ';' :: blanks).reverse).head? = some ';' :=
    dropBlanks_reversed blankToo rfl
  rw [← closed, ended, semicolon] at bracket
  cases bracket

end Whole

end PhpRendering.Text
