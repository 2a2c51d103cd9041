import PhpRendering.Proofs.PlainTree

/-!
# Ends of statements

A semicolon ends a statement. Those inside curly brackets end the statements of a
block, all others are ends of the text itself. A text is quiet when it has no ends of
its own and closes the curly brackets that it opens, wherever it stands.
-/

namespace PhpRendering

def depthStep : Nat → Char → Nat
  | depth, '\x7b' => depth + 1
  | depth, '\x7d' => depth - 1
  | depth, _ => depth

def depthAfter (depth : Nat) (letters : List Char) : Nat :=
  letters.foldl depthStep depth

/-- How many semicolons in some letters stand outside all curly brackets. -/
def endsFrom : Nat → List Char → Nat
  | _, [] => 0
  | depth, letter :: rest =>
      (if letter = ';' ∧ depth = 0 then 1 else 0) + endsFrom (depthStep depth letter) rest

@[simp]
theorem depthAfter_nil (depth : Nat) : depthAfter depth [] = depth := rfl

@[simp]
theorem depthAfter_cons (depth : Nat) (letter : Char) (rest : List Char) :
    depthAfter depth (letter :: rest) = depthAfter (depthStep depth letter) rest := rfl

@[simp]
theorem depthAfter_append (depth : Nat) (first second : List Char) :
    depthAfter depth (first ++ second) = depthAfter (depthAfter depth first) second :=
  List.foldl_append

@[simp]
theorem endsFrom_append (depth : Nat) (first second : List Char) :
    endsFrom depth (first ++ second) =
      endsFrom depth first + endsFrom (depthAfter depth first) second := by
  induction first generalizing depth with
  | nil => exact (Nat.zero_add _).symm
  | cons letter rest ih =>
      rw [List.cons_append, endsFrom, ih, endsFrom, Nat.add_assoc]
      rfl

/-- The brackets tell how the depth changes. -/
theorem depthStep_eq (depth : Nat) (letter : Char) :
    depthStep depth letter =
      match Mark.ofChar? letter with
      | some (.opening .curly) => depth + 1
      | some (.closing .curly) => depth - 1
      | _ => depth := by
  by_cases opens : letter = '\x7b'
  · subst opens
    rfl
  by_cases closes : letter = '\x7d'
  · subst closes
    rfl
  have still : depthStep depth letter = depth := by
    unfold depthStep
    split <;> first | contradiction | rfl
  rw [still]
  split
  · next mark =>
      unfold Mark.ofChar? at mark
      split at mark <;> contradiction
  · next mark =>
      unfold Mark.ofChar? at mark
      split at mark <;> contradiction
  · rfl

/-- Inside curly brackets nothing ends, as long as the brackets fit. -/
theorem inside_of_stillOpen {letters : List Char} {before after : List Bracket}
    (read : stillOpen before (letters.filterMap Mark.ofChar?) = some after) (depth : Nat) :
    endsFrom (depth + 1 + before.count .curly) letters = 0 ∧
      depthAfter (depth + 1 + before.count .curly) letters = depth + 1 + after.count .curly := by
  induction letters generalizing before with
  | nil =>
      cases read
      exact ⟨rfl, rfl⟩
  | cons letter rest ih =>
      have covered : ¬ (letter = ';' ∧ depth + 1 + before.count .curly = 0) := by omega
      rw [endsFrom, if_neg covered, Nat.zero_add, depthAfter_cons, depthStep_eq]
      cases mark : Mark.ofChar? letter with
      | none =>
          rw [List.filterMap_cons_none mark] at read
          exact ih read
      | some found =>
          rw [List.filterMap_cons_some mark] at read
          cases found with
          | opening bracket =>
              have inner := @ih (bracket :: before) read
              cases bracket with
              | curly => simpa [Nat.add_assoc] using inner
              | round => simpa using inner
              | square => simpa using inner
          | closing bracket =>
              cases before with
              | nil => cases read
              | cons innermost outer =>
                  by_cases same : bracket = innermost
                  · subst same
                    simp only [stillOpen, if_true] at read
                    cases bracket with
                    | curly =>
                        have outside : depth + 1 + (outer.count .curly + 1) - 1 =
                            depth + 1 + outer.count .curly := by omega
                        simp only [List.count_cons_self, outside]
                        exact ih read
                    | round => simpa using ih read
                    | square => simpa using ih read
                  · simp only [stillOpen, if_neg same] at read
                    cases read

namespace Text

/-- The characters that end statements or stand around blocks. -/
def blockMarks : List Char :=
  [';', '\x7b', '\x7d']

theorem blockMarks_subset : blockMarks ⊆ delimiters := by
  decide

theorem blockless : Vocabulary (Avoids blockMarks) :=
  avoids_vocabulary blockMarks_subset

/-- How many ends of statements a text has outside curly brackets. -/
def ends (text : String) : Nat :=
  endsFrom 0 text.toList

example : ends "for ($i = 0; $i; function () \x7b f(); \x7d)" = 2 := by decide

structure IsQuiet (text : String) : Prop where
  ends : ∀ depth, endsFrom depth text.toList = 0
  depth : ∀ depth, depthAfter depth text.toList = depth

namespace IsQuiet

theorem ends_eq_zero {text : String} (quiet : IsQuiet text) : Text.ends text = 0 :=
  quiet.ends 0

theorem append {first second : String} (before : IsQuiet first) (after : IsQuiet second) :
    IsQuiet (first ++ second) := by
  constructor
  · intro depth
    rw [String.toList_append, endsFrom_append, before.ends, before.depth, after.ends]
  · intro depth
    rw [String.toList_append, depthAfter_append, before.depth, after.depth]

theorem of_avoids {text : String} (avoids : Avoids blockMarks text) : IsQuiet text := by
  have still (letters : List Char) (plain : ∀ letter ∈ letters, letter ∉ blockMarks)
      (depth : Nat) : endsFrom depth letters = 0 ∧ depthAfter depth letters = depth := by
    induction letters with
    | nil => exact ⟨rfl, rfl⟩
    | cons letter rest ih =>
        obtain ⟨first, later⟩ := List.forall_mem_cons.mp plain
        have other : letter ≠ ';' := by
          rintro rfl
          exact first (by decide)
        have step : depthStep depth letter = depth := by
          unfold depthStep
          split
          · exact absurd (by decide) first
          · exact absurd (by decide) first
          · rfl
        rw [endsFrom, if_neg (other ·.1), Nat.zero_add, depthAfter_cons, step]
        exact ih later
  exact ⟨fun depth => (still _ avoids depth).1, fun depth => (still _ avoids depth).2⟩

theorem braces : IsQuiet "\x7b\x7d" :=
  ⟨fun depth => by simp [endsFrom, depthStep], fun depth => by simp [depthStep]⟩

theorem of_isPlain {text : String} (plain : IsPlain (Avoids blockMarks) text) :
    IsQuiet text := by
  rcases plain with avoids | rfl | rfl
  · exact of_avoids avoids
  · exact of_avoids (by decide)
  · exact braces

/-- A text with fitting brackets is quiet when curly brackets stand around it. -/
theorem block {inner : String} (balanced : IsBalanced inner) :
    IsQuiet (" \x7b\n" ++ (inner ++ "\x7d\n")) := by
  have covered (depth : Nat) := inside_of_stillOpen (balanced.stillOpen_eq []) depth
  simp only [List.count_nil, Nat.add_zero] at covered
  constructor
  · intro depth
    simp [endsFrom, depthStep, covered]
  · intro depth
    simp [depthStep, covered]

end IsQuiet

/-! ## Terminators -/

theorem isTerminated_iff {text : String} :
    isTerminated text = true ↔ ∃ before, text.toList = before ++ [';'] ∨
      text.toList = before ++ [';', '\n'] := by
  unfold isTerminated isTerminatedBackwards
  constructor
  · intro ended
    split at ended
    · next rest backwards =>
        exact ⟨rest.reverse, .inl (by simpa using congrArg List.reverse backwards)⟩
    · next rest backwards =>
        exact ⟨rest.reverse, .inr (by simpa using congrArg List.reverse backwards)⟩
    · cases ended
  · rintro ⟨before, last | last⟩
    · simp [last]
    · simp [last]

theorem isTerminated_append_terminator (text : String) :
    isTerminated (text ++ terminator) = true :=
  isTerminated_iff.mpr ⟨text.toList, .inr (String.toList_append ..)⟩

/-- A quiet text does not end in a terminator: it would be an end of its own. -/
theorem IsQuiet.isTerminated_eq_false {text : String} (quiet : IsQuiet text) :
    isTerminated text = false := by
  refine Bool.eq_false_iff.mpr fun ended => ?_
  obtain ⟨before, last | last⟩ := isTerminated_iff.mp ended
  · have depth : depthAfter 0 before = 0 := by simpa [last, depthStep] using quiet.depth 0
    simpa [last, endsFrom, depth] using quiet.ends 0
  · have depth : depthAfter 0 before = 0 := by simpa [last, depthStep] using quiet.depth 0
    simpa [last, endsFrom, depth] using quiet.ends 0

/-- A letter that ends neither a statement nor a line. -/
def IsCalm (letter : Char) : Prop :=
  letter ≠ ';' ∧ letter ≠ '\n'

instance : DecidablePred IsCalm :=
  fun letter => inferInstanceAs (Decidable (letter ≠ ';' ∧ letter ≠ '\n'))

section Calm

variable {letter : Char} (calm : IsCalm letter)
include calm

/-- What stands before a calm letter is no part of a terminator. -/
theorem backwards_of_calm (letters rest : List Char) :
    isTerminatedBackwards (letters ++ letter :: rest) = isTerminatedBackwards letters ∧
      withoutTerminatorBackwards (letters ++ letter :: rest) =
        withoutTerminatorBackwards letters ++ letter :: rest := by
  obtain ⟨noSemicolon, noNewline⟩ := calm
  rcases letters with _ | ⟨last, _ | ⟨previous, letters⟩⟩
  · simp [isTerminatedBackwards, withoutTerminatorBackwards, noSemicolon, noNewline]
  · by_cases semicolon : last = ';'
    · subst semicolon
      exact ⟨rfl, rfl⟩
    · simp [isTerminatedBackwards, withoutTerminatorBackwards, semicolon, noSemicolon]
  · simp only [List.cons_append]
    unfold isTerminatedBackwards withoutTerminatorBackwards
    split <;> simp_all

/-- Only what follows a calm letter tells whether a text ends in a terminator. -/
theorem isTerminated_append_of_calm (before after : String) :
    isTerminated (before ++ String.singleton letter ++ after) = isTerminated after := by
  unfold isTerminated
  simpa using (backwards_of_calm calm after.toList.reverse before.toList.reverse).1

theorem withoutTerminator_append_of_calm (before after : String) :
    withoutTerminator (before ++ String.singleton letter ++ after) =
      before ++ String.singleton letter ++ withoutTerminator after := by
  unfold withoutTerminator
  rw [← String.toList_inj]
  simp [(backwards_of_calm calm after.toList.reverse before.toList.reverse).2]

end Calm

/-- Only what follows a blank tells whether a text ends in a terminator. -/
theorem isTerminated_append_blank (before text : String) :
    isTerminated (before ++ " " ++ text) = isTerminated text :=
  isTerminated_append_of_calm (by decide : IsCalm ' ') before text

theorem terminated_statement {text : String} (bare : isTerminated text = false) :
    Fragment.terminated ⟨text, true⟩ = text ++ terminator := by
  simp [Fragment.terminated, bare]

theorem terminated_append_terminator (text : String) (owes : Bool) :
    Fragment.terminated ⟨text ++ terminator, owes⟩ = text ++ terminator := by
  simp [Fragment.terminated, isTerminated_append_terminator]

theorem withoutTerminator_append_terminator (text : String) :
    withoutTerminator (text ++ terminator) = text := by
  unfold withoutTerminator
  simp [terminator, withoutTerminatorBackwards]

theorem withoutTerminator_eq {text : String} (bare : isTerminated text = false) :
    withoutTerminator text = text := by
  unfold isTerminated isTerminatedBackwards at bare
  unfold withoutTerminator withoutTerminatorBackwards
  split at bare
  · cases bare
  · cases bare
  · simp

end Text

end PhpRendering
