import PhpRendering.Proofs.LastLetter
import PhpRendering.Proofs.RecordLikeness
import PhpRendering.Proofs.Region

/-!
# Gaps in renderings

When a slot of a layout is filled with something else, the text of the layout changes in
one gap only: the same text stands before and after it, and the same happens before and
after. A rule that looks at the end of a text sees what stands after the gap, as long as
that is long enough.
-/

namespace PhpRendering

/-! ## Ends of long texts -/

namespace Text

/-- A text is at least as long as what is part of it. -/
theorem length_le_of_sublist {few many : String} (sub : few.toList.Sublist many.toList) :
    few.length ≤ many.length := by
  rw [← String.length_toList, ← String.length_toList]
  exact sub.length_le

/-- A long text has two last letters. -/
theorem exists_lastTwo {text : String} (long : 2 ≤ text.length) :
    ∃ last previous rest, text.toList.reverse = last :: previous :: rest := by
  rw [← String.length_toList, ← List.length_reverse] at long
  match held : text.toList.reverse, long with
  | last :: previous :: rest, _ => exact ⟨last, previous, rest, rfl⟩

/-- Whether a terminator stands at the end is told by the last two letters. -/
theorem isTerminated_append {tail : String} (long : 2 ≤ tail.length) (text : String) :
    isTerminated (text ++ tail) = isTerminated tail := by
  obtain ⟨last, previous, rest, lettered⟩ := exists_lastTwo long
  unfold isTerminated
  rw [String.toList_append, List.reverse_append, lettered, List.cons_append, List.cons_append]
  unfold isTerminatedBackwards
  split
  · next same =>
      cases same
      rfl
  · next same =>
      cases same
      rfl
  · next one two =>
      split
      · next same =>
          cases same
          exact absurd rfl (one _)
      · next same =>
          cases same
          exact absurd rfl (two _)
      · rfl

theorem withoutTerminator_append {tail : String} (long : 2 ≤ tail.length) (text : String) :
    withoutTerminator (text ++ tail) = text ++ withoutTerminator tail := by
  obtain ⟨last, previous, rest, lettered⟩ := exists_lastTwo long
  have backwards : withoutTerminatorBackwards (last :: previous :: (rest ++ text.toList.reverse)) =
      withoutTerminatorBackwards (last :: previous :: rest) ++ text.toList.reverse := by
    unfold withoutTerminatorBackwards
    split
    · next same =>
        cases same
        rfl
    · next same =>
        cases same
        rfl
    · next one two =>
        split
        · next same =>
            cases same
            exact absurd rfl (one _)
        · next same =>
            cases same
            exact absurd rfl (two _)
        · rfl
  unfold withoutTerminator
  rw [String.toList_append, List.reverse_append, lettered, List.cons_append, List.cons_append,
    backwards, List.reverse_append, List.reverse_reverse, String.ofList_append,
    String.ofList_toList]

theorem terminated_append {tail : String} {owes : Bool} (long : owes = true → 2 ≤ tail.length)
    (text : String) :
    Fragment.terminated ⟨text ++ tail, owes⟩ = text ++ Fragment.terminated ⟨tail, owes⟩ := by
  unfold Fragment.terminated
  cases owes with
  | false => rfl
  | true =>
      simp only [isTerminated_append (long rfl) text]
      split
      · exact String.append_assoc
      · rfl

theorem endLine_append {tail : String} (something : tail ≠ "") (text : String) :
    endLine (text ++ tail) = text ++ endLine tail := by
  unfold endLine
  rw [getLast?_append_of_ne_empty something]
  split
  · rfl
  · exact String.append_assoc

/-- Nothing of a text is lost at the boundary of its node. -/
theorem sublist_terminated (fragment : Fragment String) :
    fragment.content.toList.Sublist fragment.terminated.toList := by
  unfold Fragment.terminated
  split
  · rw [String.toList_append]
    exact List.sublist_append_left _ _
  · exact List.Sublist.refl _

theorem sublist_endLine (text : String) : text.toList.Sublist (endLine text).toList := by
  unfold endLine
  split
  · exact List.Sublist.refl _
  · rw [String.toList_append]
    exact List.sublist_append_left _ _

/-- What is part of a text stays a part of it when both end their lines. -/
theorem endLine_sublist {few many : String} (sub : few.toList.Sublist many.toList) :
    (endLine few).toList.Sublist (endLine many).toList := by
  unfold endLine
  split
  · split
    · exact sub
    · rw [String.toList_append]
      exact List.sublist_append_of_sublist_left sub
  · next unended =>
      rw [String.toList_append]
      split
      · next last =>
          -- the line end of the larger text is no part of the smaller one
          obtain ⟨start, ended⟩ := List.getLast?_eq_some_iff.mp last
          rw [ended] at sub ⊢
          obtain ⟨first, second, whole, inStart, inEnd⟩ := List.sublist_append_iff.mp sub
          rcases List.sublist_singleton.mp inEnd with rfl | rfl
          · rw [List.append_nil] at whole
            rw [whole]
            exact inStart.append (List.Sublist.refl _)
          · exact absurd (whole ▸ List.getLast?_concat) unended
      · rw [String.toList_append]
        exact sub.append (List.Sublist.refl _)

end Text

/-! ## Gaps -/

/-- What is seen of a function that is entered, besides what is below it: its place, its
kind and line, and its notice. -/
structure FunctionEntry where
  origin : Origin
  kind : String
  line : Json
  notice : Notice

def Node.entry (function : Node) : FunctionEntry :=
  ⟨function.origin, function.kind, function.line, function.notice⟩

def Node.SameEntry (function other : Node) : Prop :=
  function.entry = other.entry

/-- The same events, entry by entry. -/
theorem Event.likes_refl (events : List Event) :
    List.Forall₂ (Event.Like Node.SameEntry) events events := by
  refine List.forall₂_same.mpr fun event _ => ?_
  cases event with
  | reported diagnostic => exact .reported diagnostic
  | entered function => exact .entered rfl

/-- What stands before and after the text of a statement in a larger one, and what
happens before and after. -/
structure Gap where
  before : String
  after : String
  early : List Event
  late : List Event

def Gap.alone : Gap :=
  ⟨"", "", [], []⟩

/-- Whether an emission writes a text in a gap, and has some events in it. -/
structure Gap.Surrounds {ε : Type} (gap : Gap) (text : String) (events : List Event)
    (whole : Emission ε String) : Prop where
  outcome : whole.outcome = .ok (gap.before ++ text ++ gap.after)
  events : ∃ early late, whole.events = early ++ events ++ late ∧
    List.Forall₂ (Event.Like Node.SameEntry) gap.early early ∧
    List.Forall₂ (Event.Like Node.SameEntry) gap.late late

/-- Whether a rendering is that of a statement in a gap, when the statement has one. -/
def Gap.Holds {ε : Type} (gap : Gap) (statement : Emission Crash String)
    (whole : Emission ε String) : Prop :=
  ∀ text, statement.outcome = .ok text → gap.Surrounds text statement.events whole

namespace Gap.Holds

variable {ε : Type} {gap : Gap} {statement : Emission Crash String}

theorem alone (statement : Emission Crash String) : Gap.alone.Holds statement statement := by
  intro text outcome
  constructor
  · simpa [Gap.alone] using outcome
  · exact ⟨[], [], by simp, .nil, .nil⟩

theorem insideRule {whole : Emission Crash String} (holds : gap.Holds statement whole) :
    gap.Holds statement whole.insideRule := by
  intro text outcome
  obtain ⟨ended, same⟩ := holds text outcome
  obtain ⟨events, result⟩ := whole
  cases ended
  exact ⟨rfl, same⟩

/-- A text that is changed at its end. -/
theorem finish {whole : Emission ε String} (holds : gap.Holds statement whole)
    {change : String → String}
    (kept : ∀ text, change (text ++ gap.after) = text ++ change gap.after) :
    Gap.Holds { gap with after := change gap.after } statement
      (whole.andThen fun text => .done (change text)) := by
  intro text outcome
  obtain ⟨ended, same⟩ := holds text outcome
  obtain ⟨events, result⟩ := whole
  cases ended
  refine ⟨congrArg Except.ok (kept _), ?_⟩
  simpa [Emission.andThen, Emission.done] using same

/-- More text and more events behind. -/
theorem followed {whole next known : Emission ε String} {later : String}
    (holds : gap.Holds statement whole) (wrote : known.outcome = .ok later)
    (like : known.Like Node.SameEntry next) :
    Gap.Holds { gap with after := gap.after ++ later, late := gap.late ++ known.events } statement
      (whole.andThen fun text => next.andThen fun more => .done (text ++ more)) := by
  intro text outcome
  obtain ⟨ended, early, late, split, before, behind⟩ := holds text outcome
  obtain ⟨events, result⟩ := whole
  obtain ⟨others, resultToo⟩ := next
  cases ended
  cases split
  cases wrote.symm.trans like.outcome
  refine ⟨congrArg Except.ok String.append_assoc, early, late ++ others, ?_, before, ?_⟩
  · simp [Emission.andThen, Emission.done]
  · exact List.rel_append behind like.events

/-- More text and more events in front. -/
theorem preceded {whole next known : Emission ε String} {earlier : String}
    (holds : gap.Holds statement whole) (wrote : known.outcome = .ok earlier)
    (like : known.Like Node.SameEntry next) :
    Gap.Holds { gap with before := earlier ++ gap.before, early := known.events ++ gap.early }
      statement (next.andThen fun text => whole.andThen fun more => .done (text ++ more)) := by
  intro text outcome
  obtain ⟨ended, early, late, split, before, behind⟩ := holds text outcome
  obtain ⟨events, result⟩ := whole
  obtain ⟨others, resultToo⟩ := next
  cases ended
  cases split
  cases wrote.symm.trans like.outcome
  refine ⟨?_, others ++ early, late, ?_, List.rel_append like.events before, behind⟩
  · simp [Emission.andThen, Emission.done, String.append_assoc]
  · simp [Emission.andThen, Emission.done]

/-- At the boundary of a node the text gets the terminator that it owes. -/
theorem atBoundary {render : Renderer} {layout : Layout} {owes : Bool}
    (holds : gap.Holds statement (layout.write render))
    (long : owes = true → 2 ≤ gap.after.length) :
    Gap.Holds { gap with after := Fragment.terminated ⟨gap.after, owes⟩ } statement
      (PhpRendering.atBoundary "" .ok (layout.closed render owes)) := by
  intro text outcome
  obtain ⟨ended, same⟩ := holds text outcome
  unfold Layout.closed
  generalize layout.write render = whole at ended same
  obtain ⟨events, result⟩ := whole
  cases ended
  refine ⟨congrArg Except.ok (Text.terminated_append long _), ?_⟩
  simpa [Emission.andThen, Emission.done, PhpRendering.atBoundary] using same

end Gap.Holds

/-! ## Slots of layouts -/

def Layout.words : Layout → String
  | .word text => text
  | .next first second => first.words ++ second.words
  | .line layout => layout.words
  | _ => ""

/-- The words of a layout are part of every text of it. -/
theorem Layout.Writes.words_sublist {render : Renderer} {layout : Layout} {text : String}
    (writes : layout.Writes render text) : layout.words.toList.Sublist text.toList := by
  induction writes with
  | word text => exact List.Sublist.refl _
  | next _ _ one other =>
      unfold Layout.words
      rw [String.toList_append, String.toList_append]
      exact one.append other
  | line _ ih => exact ih.trans (Text.sublist_endLine _)
  | _ => exact List.nil_sublist _

/-- Whether the value of a source is written in a layout, with some text behind it whatever
else is written there. A rule that looks at the end of its text finds it behind the value. -/
inductive Layout.Shows (source : Source) (after : String) : Layout → String → Prop where
  | visit (value : Value) (position : Position) :
      Shows source after (.visit source value position) after
  | first {one other : Layout} {behind : String} (shown : Shows source after one behind) :
      Shows source after (.next one other) (behind ++ other.words)
  | second {one other : Layout} {behind : String} (shown : Shows source after other behind) :
      Shows source after (.next one other) behind
  | line {layout : Layout} {behind : String} (shown : Shows source after layout behind)
      (something : behind ≠ "") : Shows source after (.line layout) (endLine behind)
  | clause {layout : Layout} {behind : String} (shown : Shows source after layout behind)
      (long : 2 ≤ behind.length) : Shows source after (.clause layout) ""

inductive Task.Refilled (source : Source) (old new : Value) (place : Position) :
    Task → Task → Prop where
  | slot : Refilled source old new place (.visit source old place) (.visit source new place)
  | visit {other : Source} (beside : other ≠ source) (value : Value) (position : Position) :
      Refilled source old new place (.visit other value position) (.visit other value position)
  | enter {function other : Node} (same : function.SameEntry other) :
      Refilled source old new place (.enter function) (.enter other)

namespace Layout.Shows

variable {source : Source} {layout : Layout} {after behind : String}

theorem held (shown : layout.Shows source after behind) :
    ∃ value position, .visit source value position ∈ layout.tasks := by
  induction shown with
  | visit value position => exact ⟨value, position, List.mem_singleton_self _⟩
  | first _ ih =>
      obtain ⟨value, position, held⟩ := ih
      exact ⟨value, position, List.mem_append_left _ held⟩
  | second _ ih =>
      obtain ⟨value, position, held⟩ := ih
      exact ⟨value, position, List.mem_append_right _ held⟩
  | line _ _ ih => exact ih
  | clause _ _ ih => exact ih

end Layout.Shows

/-- No source has its region apart from itself. -/
theorem Source.not_apart_self (source : Source) : ¬ source.Apart source := by
  intro apart
  have overlap (region : Origin) : ¬ region.Apart region := fun both => both.1 (.refl region)
  have some : ∃ region, region ∈ source.regions ⟨0, []⟩ := by
    cases source <;> exact ⟨_, List.mem_cons_self ..⟩
  obtain ⟨region, listed⟩ := some
  exact overlap region (apart _ region listed region listed)

section Gaps

variable {render : Renderer} {source : Source} {layout : Layout}
  (slots : ∀ other value place, .visit other value place ∈ layout.tasks → other ≠ source →
    ∃ text, (render value place).outcome = .ok text)
  (free : ∀ fault, .stop fault ∉ layout.tasks)
include slots free

/-- A layout without the source writes the same text. -/
theorem Layout.exists_beside
    (beside : ∀ value position, .visit source value position ∉ layout.tasks) :
    ∃ text, layout.Writes render text ∧
      ∀ {old new place other}, layout.Like (Task.Refilled source old new place) other →
        (layout.write render).Like Node.SameEntry (other.write render) := by
  have others : ∀ known value place, .visit known value place ∈ layout.tasks →
      ∃ text, (render value place).outcome = .ok text := by
    intro known value place held
    refine slots known value place held ?_
    rintro rfl
    exact beside value place held
  obtain ⟨text, writes⟩ := Layout.exists_writes others free
  refine ⟨text, writes, fun like => like.write ?_ ?_⟩
  · intro function other related
    cases related with
    | enter same => exact same
  · intro known value position other counterpart placeToo held related
    cases related with
    | slot => exact absurd held (beside _ _)
    | visit different value position => exact ⟨Event.likes_refl _, rfl⟩

/-- When the value of a source is replaced, the text of the layout changes in one gap. -/
theorem Layout.Shows.exists_gap {inner : Gap} {behind : String}
    (shown : layout.Shows source inner.after behind)
    (apart : layout.tasks.Pairwise Task.Apart) :
    ∃ gap : Gap, behind.toList.Sublist gap.after.toList ∧
      ∀ {old new place statement other}, inner.Holds statement (render new place) →
        layout.Like (Task.Refilled source old new place) other →
          gap.Holds statement (other.write render) := by
  induction shown with
  | visit value position =>
      refine ⟨inner, List.Sublist.refl _, fun holds like => ?_⟩
      cases like with
      | visit related =>
          cases related with
          | slot => exact holds.insideRule
          | visit beside _ _ => exact absurd rfl beside
  | @first one other behind shown ih =>
      simp only [Layout.tasks, List.mem_append, not_or] at slots free
      rw [Layout.tasks, List.pairwise_append] at apart
      obtain ⟨value, position, held⟩ := shown.held
      obtain ⟨later, writes, same⟩ := Layout.exists_beside
        (fun known value place among => slots known value place (.inr among))
        (fun fault => (free fault).2)
        fun valueToo place heldToo => source.not_apart_self (apart.2.2 _ held _ heldToo)
      obtain ⟨gap, sub, holds⟩ := ih
        (fun known value place among => slots known value place (.inl among))
        (fun fault => (free fault).1) apart.1
      refine ⟨⟨gap.before, gap.after ++ later, gap.early, gap.late ++ (other.write render).events⟩,
        ?_, fun statement like => ?_⟩
      · rw [String.toList_append, String.toList_append]
        exact sub.append writes.words_sublist
      · cases like with
        | next likeOne likeOther =>
            exact (holds statement likeOne).followed (Layout.writes_iff.mp writes) (same likeOther)
  | @second one other behind shown ih =>
      simp only [Layout.tasks, List.mem_append, not_or] at slots free
      rw [Layout.tasks, List.pairwise_append] at apart
      obtain ⟨value, position, held⟩ := shown.held
      obtain ⟨earlier, writes, same⟩ := Layout.exists_beside
        (fun known value place among => slots known value place (.inl among))
        (fun fault => (free fault).1)
        fun valueToo place heldToo => source.not_apart_self (apart.2.2 _ heldToo _ held)
      obtain ⟨gap, sub, holds⟩ := ih
        (fun known value place among => slots known value place (.inr among))
        (fun fault => (free fault).2) apart.2.1
      refine ⟨⟨earlier ++ gap.before, gap.after, (one.write render).events ++ gap.early, gap.late⟩,
        sub, fun statement like => ?_⟩
      cases like with
      | next likeOne likeOther =>
          exact (holds statement likeOther).preceded (Layout.writes_iff.mp writes) (same likeOne)
  | @line layout behind shown something ih =>
      obtain ⟨gap, sub, holds⟩ := ih slots free apart
      have more : gap.after ≠ "" := by
        intro empty
        rw [empty] at sub
        exact something (String.toList_inj.mp (List.sublist_nil.mp sub))
      refine ⟨⟨gap.before, endLine gap.after, gap.early, gap.late⟩, Text.endLine_sublist sub,
        fun statement like => ?_⟩
      cases like with
      | line inner => exact (holds statement inner).finish (Text.endLine_append more)
  | @clause layout behind shown long ih =>
      obtain ⟨gap, sub, holds⟩ := ih slots free apart
      have longer : 2 ≤ gap.after.length := Nat.le_trans long (Text.length_le_of_sublist sub)
      refine ⟨⟨gap.before, withoutTerminator gap.after, gap.early, gap.late⟩, List.nil_sublist _,
        fun statement like => ?_⟩
      cases like with
      | clause inner =>
          exact (holds statement inner).finish (Text.withoutTerminator_append longer)

end Gaps

end PhpRendering
