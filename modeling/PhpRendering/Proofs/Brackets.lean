import PhpRendering.Rule.Fragment

/-!
# Words of brackets

The brackets of a text form a word over three pairs. A word is well nested when it is
built by putting well nested words one after another and pairs of brackets around them.
That is decided from left to right, with a stack of the brackets that are open.
-/

namespace PhpRendering

inductive Bracket where
  | round
  | curly
  | square
deriving DecidableEq, Repr

inductive Mark where
  | opening (bracket : Bracket)
  | closing (bracket : Bracket)
deriving DecidableEq, Repr

def Mark.ofChar? : Char → Option Mark
  | '(' => some (.opening .round)
  | ')' => some (.closing .round)
  | '\x7b' => some (.opening .curly)
  | '\x7d' => some (.closing .curly)
  | '[' => some (.opening .square)
  | ']' => some (.closing .square)
  | _ => none

def Text.marks (text : String) : List Mark :=
  text.toList.filterMap Mark.ofChar?

inductive WellNested : List Mark → Prop where
  | nil : WellNested []
  | append {first second : List Mark} (before : WellNested first) (after : WellNested second) :
      WellNested (first ++ second)
  | pair (bracket : Bracket) {inner : List Mark} (inside : WellNested inner) :
      WellNested (.opening bracket :: (inner ++ [.closing bracket]))

def Text.IsBalanced (text : String) : Prop :=
  WellNested (Text.marks text)

/-! ## Reading from left to right -/

/-- The brackets that are open after a word, the innermost first, when some were open
before it. There is no answer when a bracket does not close the innermost one. -/
def stillOpen : List Bracket → List Mark → Option (List Bracket)
  | stack, [] => some stack
  | stack, .opening bracket :: rest => stillOpen (bracket :: stack) rest
  | [], .closing _ :: _ => none
  | innermost :: stack, .closing bracket :: rest =>
      if bracket = innermost then stillOpen stack rest else none

theorem stillOpen_append (stack : List Bracket) (first second : List Mark) :
    stillOpen stack (first ++ second) =
      (stillOpen stack first).bind fun inner => stillOpen inner second := by
  induction first generalizing stack with
  | nil => rfl
  | cons mark rest ih =>
      cases mark with
      | opening bracket => exact ih (bracket :: stack)
      | closing bracket =>
          cases stack with
          | nil => rfl
          | cons innermost stack =>
              by_cases same : bracket = innermost
              · simp only [List.cons_append, stillOpen, same, if_true]
                exact ih stack
              · simp only [List.cons_append, stillOpen, same, if_false, Option.bind_none]

namespace WellNested

/-- A well nested word leaves open what was open before it. -/
theorem stillOpen_eq {word : List Mark} (nested : WellNested word) (stack : List Bracket) :
    stillOpen stack word = some stack := by
  induction nested generalizing stack with
  | nil => rfl
  | append before after first second =>
      rw [stillOpen_append, first stack]
      exact second stack
  | pair bracket inside ih =>
      rw [stillOpen, stillOpen_append, ih (bracket :: stack), Option.bind_some, stillOpen,
        if_pos rfl, stillOpen]

/-- A well nested word may be put anywhere into a well nested word. -/
theorem insert {before after inner : List Mark} (outer : WellNested (before ++ after))
    (inside : WellNested inner) : WellNested (before ++ inner ++ after) := by
  generalize split : before ++ after = word at outer
  induction outer generalizing before after with
  | nil =>
      obtain ⟨rfl, rfl⟩ := List.append_eq_nil_iff.mp split
      simpa using inside
  | @append first second left right ihLeft ihRight =>
      rcases List.append_eq_append_iff.mp split with ⟨rest, rfl, rfl⟩ | ⟨rest, rfl, rfl⟩
      · simpa [List.append_assoc] using append (ihLeft rfl) right
      · simpa [List.append_assoc] using append left (ihRight rfl)
  | @pair bracket word within ih =>
      cases before with
      | nil =>
          simp only [List.nil_append] at split ⊢
          rw [split]
          exact append inside (pair bracket within)
      | cons mark before =>
          obtain ⟨rfl, rest⟩ := List.cons.inj split
          rcases List.eq_nil_or_concat after with rfl | ⟨after, last, rfl⟩
          · have whole : before = word ++ [.closing bracket] := by simpa using rest
            subst whole
            simpa using append (pair bracket within) inside
          · have parts : before ++ after ++ [last] = word ++ [.closing bracket] := by
              simpa [List.append_assoc] using rest
            obtain ⟨rfl, closed⟩ := List.append_inj' parts rfl
            cases closed
            simpa [List.append_assoc] using pair bracket (ih rfl)

end WellNested

/-- A word that closes all that is open completes the brackets that opened it. -/
theorem wellNested_of_stillOpen {stack : List Bracket} {word : List Mark}
    (closed : stillOpen stack word = some []) :
    WellNested (stack.reverse.map Mark.opening ++ word) := by
  induction word generalizing stack with
  | nil =>
      cases closed
      exact .nil
  | cons mark rest ih =>
      cases mark with
      | opening bracket =>
          have opened := @ih (bracket :: stack) closed
          simpa [List.append_assoc] using opened
      | closing bracket =>
          cases stack with
          | nil => cases closed
          | cons innermost stack =>
              by_cases same : bracket = innermost
              · subst same
                rw [stillOpen, if_pos rfl] at closed
                have partner : WellNested [.opening bracket, .closing bracket] :=
                  .pair bracket .nil
                simpa [List.append_assoc] using (ih closed).insert partner
              · rw [stillOpen, if_neg same] at closed
                cases closed

/-- The well nested words are those that can be read with nothing left open. -/
theorem wellNested_iff {word : List Mark} : WellNested word ↔ stillOpen [] word = some [] :=
  ⟨fun nested => nested.stillOpen_eq [], wellNested_of_stillOpen⟩

instance (word : List Mark) : Decidable (WellNested word) :=
  decidable_of_iff _ wellNested_iff.symm

instance (text : String) : Decidable (Text.IsBalanced text) :=
  inferInstanceAs (Decidable (WellNested _))

example : Text.IsBalanced "foo(array($a[0]))" := by decide

example : ¬ Text.IsBalanced "foo(array($a[0)])" := by decide

/-! ## Brackets of texts -/

namespace Text

@[simp]
theorem marks_append (first second : String) :
    marks (first ++ second) = marks first ++ marks second := by
  simp only [marks, String.toList_append, List.filterMap_append]

/-- A text without its terminator has the same brackets. -/
theorem marks_withoutTerminator (text : String) : marks (withoutTerminator text) = marks text := by
  have backwards (letters : List Char) :
      (withoutTerminatorBackwards letters).filterMap Mark.ofChar? =
        letters.filterMap Mark.ofChar? := by
    unfold withoutTerminatorBackwards
    split <;> rfl
  unfold marks withoutTerminator
  rw [String.toList_ofList, List.filterMap_reverse, backwards, ← List.filterMap_reverse,
    List.reverse_reverse]

theorem marks_endLine (text : String) : marks (endLine text) = marks text := by
  unfold endLine
  split
  · rfl
  · rw [marks_append]
    exact List.append_nil _

theorem marks_terminated (fragment : Fragment String) :
    marks fragment.terminated = marks fragment.content := by
  unfold Fragment.terminated
  split
  · rw [marks_append]
    exact List.append_nil _
  · rfl

end Text

end PhpRendering
