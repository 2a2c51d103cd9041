import PhpRendering.Proofs.Gap
import PhpRendering.Proofs.Composition
import PhpRendering.Proofs.Inversion
import PhpRendering.Proofs.Shown

/-!
# Texts that mention a literal

A literal that is the object of an access can be taken for another one. A text that
mentions it is known up to the literal: what stands before and after does not depend on
it, and the connective that may follow it depends on its casing only. Rules that look at
the end of a text look at what follows the literal. When the slots of a layout are filled
with such texts, of which one at most mentions the literal, the layout has such a text.
-/

namespace PhpRendering

/-! ## Mentions -/

/-- The text of a literal: its own spelling, or one made for its value. -/
def Node.spelling (literal : Node) : String :=
  match literal.field? "raw" with
  | some raw => raw.shown
  | none => Rule.literalText (literal.field "value")

/-- What follows the text of a literal: a letter that ends nothing, or the connective of the
access that has the literal as its object. -/
inductive Link where
  | fixed (letter : Char) (calm : Text.IsCalm letter)
  | connective

def Link.text (property : Value) (literal : Node) : Link → String
  | .fixed letter _ => String.singleton letter
  | .connective => (Connective.between (.node literal) property).text

/-- A text in which a literal is mentioned once, or not at all. -/
inductive Mention where
  | absent (text : String)
  | once (before : String) (link : Link) (after : String)

namespace Mention

/-- The text, once the literal is known. The property is that of the access to it. -/
def text (property : Value) (literal : Node) : Mention → String
  | .absent text => text
  | .once before link after =>
      before ++ literal.spelling ++ link.text property literal ++ after

def isThere : Mention → Bool
  | .absent _ => false
  | .once .. => true

def isConnected : Mention → Bool
  | .once _ .connective _ => true
  | _ => false

def append : Mention → Mention → Mention
  | .absent text, .absent other => .absent (text ++ other)
  | .absent text, .once before link after => .once (text ++ before) link after
  | .once before link after, .absent text => .once before link (after ++ text)
  | first, .once .. => first

def finish (change : String → String) : Mention → Mention
  | .absent text => .absent (change text)
  | .once before link after => .once before link (change after)

variable (property : Value) (literal : Node)

theorem append_text {first second : Mention}
    (single : first.isThere = true → second.isThere = false) :
    (first.append second).text property literal =
      first.text property literal ++ second.text property literal := by
  cases first with
  | absent text =>
      cases second with
      | absent other => rfl
      | once before link after => simp only [append, Mention.text, String.append_assoc]
  | once before link after =>
      cases second with
      | absent text => simp only [append, Mention.text, String.append_assoc]
      | once => cases single rfl

theorem isThere_append {first second : Mention} (there : (first.append second).isThere = true) :
    first.isThere = true ∨ second.isThere = true := by
  cases first with
  | absent text =>
      cases second with
      | absent other => cases there
      | once => exact .inr rfl
  | once => exact .inl rfl

@[simp]
theorem isThere_finish (change : String → String) (mention : Mention) :
    (mention.finish change).isThere = mention.isThere := by
  cases mention <;> rfl

end Mention

/-! ## Ends of texts -/

/-- Whether a change of texts looks at nothing before a calm letter. -/
def Text.EndsOnly (change : String → String) : Prop :=
  ∀ (before : String) (letter : Char) (after : String), Text.IsCalm letter →
    change (before ++ String.singleton letter ++ after) =
      before ++ String.singleton letter ++ change after

theorem Text.endsOnly_withoutTerminator : EndsOnly withoutTerminator :=
  fun before _ after calm => withoutTerminator_append_of_calm calm before after

theorem Text.endsOnly_endLine : EndsOnly endLine := by
  intro before letter after calm
  by_cases nothing : after = ""
  · subst nothing
    unfold endLine
    simp [calm.2]
  · exact endLine_append nothing _

theorem Text.endsOnly_terminated (owes : Bool) :
    EndsOnly fun text => Fragment.terminated ⟨text, owes⟩ := by
  intro before letter after calm
  unfold Fragment.terminated
  simp only [isTerminated_append_of_calm calm]
  split
  · exact String.append_assoc
  · rfl

/-- A link ends in a calm letter, whatever the literal is. -/
theorem Link.ends_calm (property : Value) (literal : Node) (link : Link) :
    ∃ start letter, Text.IsCalm letter ∧
      link.text property literal = start ++ String.singleton letter := by
  cases link with
  | fixed letter calm => exact ⟨"", letter, calm, String.empty_append.symm⟩
  | connective =>
      unfold Link.text
      cases Connective.between (.node literal) property with
      | namespaceMember => exact ⟨"", '\\', by decide, rfl⟩
      | staticMember => exact ⟨":", ':', by decide, rfl⟩
      | instanceMember => exact ⟨"-", '>', by decide, rfl⟩

/-- A change at the end of a text leaves the literal and what stands before it alone. -/
theorem Mention.finish_text {change : String → String} (ends : Text.EndsOnly change)
    (property : Value) (literal : Node) (mention : Mention) :
    (mention.finish change).text property literal = change (mention.text property literal) := by
  cases mention with
  | absent text => rfl
  | once before link after =>
      obtain ⟨start, letter, calm, same⟩ := link.ends_calm property literal
      simp only [finish, text, same, ← String.append_assoc, ends _ letter after calm]

/-! ## Layouts without changes -/

/-- Whether a layout writes its slots as they are, apart from ends. -/
def Layout.isUnchanged : Layout → Bool
  | .next first second => first.isUnchanged && second.isUnchanged
  | .swap first second => first.isUnchanged && second.isUnchanged
  | .unwritten layout => layout.isUnchanged
  | .clause layout => layout.isUnchanged
  | .line layout => layout.isUnchanged
  | .changed _ _ => false
  | _ => true

theorem Layout.isUnchanged_of_isStraight {layout : Layout} (straight : layout.isStraight = true) :
    layout.isUnchanged = true := by
  induction layout with
  | next first second ih ihSecond =>
      rw [Layout.isStraight, Bool.and_eq_true] at straight
      rw [Layout.isUnchanged, ih straight.1, ihSecond straight.2, Bool.and_self]
  | swap | unwritten | clause | line | changed => cases straight
  | _ => rfl

theorem Layout.unchanged : Layout.Compositional fun layout => layout.isUnchanged = true where
  empty := rfl
  visit _ _ _ := rfl
  enter _ := rfl
  report _ := rfl
  stop _ := rfl
  next before after := Bool.and_eq_true_iff.mpr ⟨before, after⟩
  swap before after := Bool.and_eq_true_iff.mpr ⟨before, after⟩
  unwritten inner := inner

/-- Nothing is changed in the call of a substitute. -/
theorem Layout.isUnchanged_substituted (node : Node) (substitute : Substitute) :
    (Layout.substituted node substitute).isUnchanged = true := by
  by_cases character : substitute = .charAt
  · subst character
    have operands : (Layout.optionalItems node "arguments" (Layout.firstOr "0")).isUnchanged = true :=
      unchanged.optionalItems fun _ all => unchanged.firstOr rfl all
    refine unchanged.swap (unchanged.joined ?_) (unchanged.joined ?_)
    · simp [operands, Layout.isUnchanged]
    · simp [unchanged.callReceiver, Layout.isUnchanged]
  · exact isUnchanged_of_isStraight (isStraight_substituted character)

open Layout in
/-- Nothing is changed in the layouts of readable nodes: only lists and numbers are, when a call
continues them. -/
theorem Construct.layout_isUnchanged {options : Options} {node : Node} {position : Position}
    (readable : node.Readable) {construct : Construct}
    (known : Construct.ofKind? node.kind = some construct) :
    (construct.layout options node position).isUnchanged = true := by
  have straight (ordered : node.substitute? options position ≠ some .charAt)
      (other : construct ∉ [.ifStatement, .forStatement, .forInStatement]) :=
    isUnchanged_of_isStraight (Construct.layout_isStraight readable ordered known other)
  cases construct with
  | ifStatement =>
      have branch : (alternate node).isUnchanged = true :=
        isUnchanged_of_isStraight isStraight_alternate
      refine unchanged.joined ?_
      simp [unchanged.child, unchanged.text, branch, Layout.isUnchanged]
  | forStatement =>
      have start : (Layout.optional node "init" .empty (.loopInit node)).isUnchanged = true :=
        unchanged.optional rfl fun init _ => unchanged.loopInit node init rfl fun inner => inner
      have clause (field : String) : (Layout.optionalChild node field "" "" "").isUnchanged = true :=
        unchanged.optionalChild rfl rfl rfl
      refine unchanged.joined ?_
      simp [start, clause, unchanged.child, Layout.isUnchanged]
  | forInStatement =>
      refine unchanged.joined ?_
      simp [unchanged.child, unchanged.text, Layout.isUnchanged]
  | call =>
      refine unchanged.needed fun callee found => unchanged.shaped fun called _ =>
        unchanged.shaped fun substitute _ => ?_
      cases substitute with
      | some substitute => exact isUnchanged_substituted node substitute
      | none =>
          have form : callee.form = .text := by
            rw [← Node.field_of_field? found]
            exact readable.callee_form known
          have checked : (shaped position.checkParent fun _ => empty).isUnchanged = true :=
            unchanged.shaped fun _ _ => rfl
          have operands : (arguments node).isUnchanged = true :=
            isUnchanged_of_isStraight isStraight_arguments
          simp only [continued_of_form form]
          refine unchanged.joined ?_
          simp [operands, checked, Layout.isUnchanged]
  | member =>
      refine unchanged.needed fun object _ => unchanged.needed fun property _ =>
        unchanged.shaped fun substitute _ => ?_
      cases substitute with
      | some substitute => exact isUnchanged_substituted node substitute
      | none =>
          refine unchanged.next rfl ?_
          split <;> rfl
  | _ => exact straight (by simp [Node.substitute?, known]) (by decide)

theorem Node.layout_isUnchanged {options : Options} {node : Node} {position : Position}
    (readable : node.Readable) : (node.layout options position).isUnchanged = true := by
  unfold Node.layout
  split
  · rfl
  · next construct known => exact Construct.layout_isUnchanged readable known

/-! ## Layouts -/

section Layouts

variable (render : Renderer) (property : Value) (mentions : Source → Position → Mention)

/-- Two tasks of which the second one has the text that is expected at the place of the first
one, once the literal is known. -/
inductive Task.Expected (literal : Node) : Task → Task → Prop where
  | visit {source : Source} {value counterpart : Value} {place position : Position}
      (rendered : (render counterpart position).outcome =
        .ok ((mentions source place).text property literal)) :
      Expected literal (.visit source value place) (.visit source counterpart position)
  | enter (function other : Node) : Expected literal (.enter function) (.enter other)

def Task.IsMentioning : Task → Prop
  | .visit source _ place => (mentions source place).isThere = true
  | _ => False

def Task.NotBoth (task other : Task) : Prop :=
  task.IsMentioning mentions → ¬ other.IsMentioning mentions

/-- Whether the layouts that are expected for a layout have a text that mentions the literal
when one of the slots does. -/
structure Layout.HasMention (layout : Layout) (mention : Mention) : Prop where
  place : mention.isThere = true → ∃ task ∈ layout.tasks, task.IsMentioning mentions
  writes : ∀ literal other, layout.Like (Task.Expected render property mentions literal) other →
    other.Writes render (mention.text property literal)

def Layout.LacksField (layout : Layout) (missing : Missing) : Prop :=
  ∀ literal other, layout.Like (Task.Expected render property mentions literal) other →
    (other.write render).outcome = .error (.missing missing)

variable {render property mentions}

open Emission

namespace Layout.HasMention

variable {layout first second : Layout} {mention mentionToo : Mention}

/-- A layout that does not mention the literal. -/
theorem absent {text : String}
    (same : ∀ literal other, layout.Like (Task.Expected render property mentions literal) other →
      other.Writes render text) : layout.HasMention render property mentions (.absent text) :=
  ⟨fun there => absurd there Bool.false_ne_true, same⟩

/-- Of two layouts one at most mentions the literal. -/
theorem single (one : first.HasMention render property mentions mention)
    (other : second.HasMention render property mentions mentionToo)
    (apart : ∀ task ∈ first.tasks, ∀ counterpart ∈ second.tasks,
      task.NotBoth mentions counterpart) :
    mention.isThere = true → mentionToo.isThere = false := by
  intro there
  refine Bool.eq_false_iff.mpr fun thereToo => ?_
  obtain ⟨task, held, mentioning⟩ := one.place there
  obtain ⟨counterpart, heldToo, mentioningToo⟩ := other.place thereToo
  exact apart task held counterpart heldToo mentioning mentioningToo

theorem next (one : first.HasMention render property mentions mention)
    (other : second.HasMention render property mentions mentionToo)
    (single : mention.isThere = true → mentionToo.isThere = false) :
    (Layout.next first second).HasMention render property mentions (mention.append mentionToo) where
  place there := by
    rcases Mention.isThere_append there with inFirst | inSecond
    · obtain ⟨task, held, mentioning⟩ := one.place inFirst
      exact ⟨task, List.mem_append_left _ held, mentioning⟩
    · obtain ⟨task, held, mentioning⟩ := other.place inSecond
      exact ⟨task, List.mem_append_right _ held, mentioning⟩
  writes literal counterpart like := by
    rw [Mention.append_text property literal single]
    cases like with
    | next likeOne likeOther =>
        exact .next (one.writes literal _ likeOne) (other.writes literal _ likeOther)

theorem swap (one : first.HasMention render property mentions mention)
    (other : second.HasMention render property mentions mentionToo)
    (single : mentionToo.isThere = true → mention.isThere = false) :
    (Layout.swap first second).HasMention render property mentions (mentionToo.append mention) where
  place there := by
    rcases Mention.isThere_append there with inSecond | inFirst
    · obtain ⟨task, held, mentioning⟩ := other.place inSecond
      exact ⟨task, List.mem_append_right _ held, mentioning⟩
    · obtain ⟨task, held, mentioning⟩ := one.place inFirst
      exact ⟨task, List.mem_append_left _ held, mentioning⟩
  writes literal counterpart like := by
    rw [Mention.append_text property literal single]
    cases like with
    | swap likeOne likeOther =>
        exact .swap (one.writes literal _ likeOne) (other.writes literal _ likeOther)

theorem clause (inner : layout.HasMention render property mentions mention) :
    (Layout.clause layout).HasMention render property mentions
      (mention.finish withoutTerminator) where
  place there := inner.place (by rwa [Mention.isThere_finish] at there)
  writes literal counterpart like := by
    rw [Mention.finish_text Text.endsOnly_withoutTerminator]
    cases like with
    | clause below => exact .clause (inner.writes literal _ below)

theorem line (inner : layout.HasMention render property mentions mention) :
    (Layout.line layout).HasMention render property mentions (mention.finish endLine) where
  place there := inner.place (by rwa [Mention.isThere_finish] at there)
  writes literal counterpart like := by
    rw [Mention.finish_text Text.endsOnly_endLine]
    cases like with
    | line below => exact .line (inner.writes literal _ below)

end Layout.HasMention

namespace Layout.LacksField

variable {layout first second : Layout} {mention : Mention} {missing : Missing}

theorem next_left (stopped : first.LacksField render property mentions missing) :
    (Layout.next first second).LacksField render property mentions missing := by
  intro literal other like
  cases like with
  | next one _ => exact andThen_outcome_error_iff.mpr (.inl (stopped literal _ one))

theorem next_right (one : first.HasMention render property mentions mention)
    (stopped : second.LacksField render property mentions missing) :
    (Layout.next first second).LacksField render property mentions missing := by
  intro literal other like
  cases like with
  | next likeOne likeOther =>
      have before := writes_iff.mp (one.writes literal _ likeOne)
      exact andThen_outcome_error_iff.mpr (.inr ⟨_, before,
        andThen_outcome_error_iff.mpr (.inl (stopped literal _ likeOther))⟩)

theorem swap_left (stopped : first.LacksField render property mentions missing) :
    (Layout.swap first second).LacksField render property mentions missing := by
  intro literal other like
  cases like with
  | swap one _ => exact andThen_outcome_error_iff.mpr (.inl (stopped literal _ one))

theorem swap_right (one : first.HasMention render property mentions mention)
    (stopped : second.LacksField render property mentions missing) :
    (Layout.swap first second).LacksField render property mentions missing := by
  intro literal other like
  cases like with
  | swap likeOne likeOther =>
      have after := writes_iff.mp (one.writes literal _ likeOne)
      exact andThen_outcome_error_iff.mpr (.inr ⟨_, after,
        andThen_outcome_error_iff.mpr (.inl (stopped literal _ likeOther))⟩)

end Layout.LacksField

/-- A layout whose slots are filled with texts that mention a literal has such a text, or it
lacks a field, whatever the literal is. -/
theorem Layout.exists_mention {layout : Layout} (unchanged : layout.isUnchanged = true)
    (faults : ∀ fault, .stop fault ∈ layout.tasks → ∃ missing, fault = .missing missing)
    (single : layout.tasks.Pairwise (Task.NotBoth mentions)) :
    (∃ mention, layout.HasMention render property mentions mention) ∨
      ∃ missing, layout.LacksField render property mentions missing := by
  induction layout with
  | word text =>
      refine .inl ⟨.absent text, .absent fun literal other like => ?_⟩
      cases like
      exact .word text
  | visit source value place =>
      refine .inl ⟨mentions source place, fun there => ⟨_, List.mem_singleton_self _, there⟩, ?_⟩
      intro literal other like
      cases like with
      | visit expected =>
          cases expected with
          | visit rendered => exact .visit rendered
  | enter function =>
      refine .inl ⟨.absent "", .absent fun literal other like => ?_⟩
      cases like
      exact .enter _
  | report diagnostic =>
      refine .inl ⟨.absent "", .absent fun literal other like => ?_⟩
      cases like
      exact .report diagnostic
  | stop fault =>
      obtain ⟨missing, rfl⟩ := faults fault (List.mem_singleton_self _)
      refine .inr ⟨missing, fun literal other like => ?_⟩
      cases like
      rfl
  | next first second ih ihSecond =>
      obtain ⟨kept, keptToo⟩ := Bool.and_eq_true_iff.mp unchanged
      simp only [Layout.tasks, List.mem_append] at faults
      rw [Layout.tasks, List.pairwise_append] at single
      rcases ih kept (fun fault held => faults fault (.inl held)) single.1 with
        ⟨_, one⟩ | ⟨_, stopped⟩
      · rcases ihSecond keptToo (fun fault held => faults fault (.inr held)) single.2.1 with
          ⟨_, other⟩ | ⟨_, stopped⟩
        · exact .inl ⟨_, one.next other (one.single other single.2.2)⟩
        · exact .inr ⟨_, .next_right one stopped⟩
      · exact .inr ⟨_, stopped.next_left⟩
  | swap first second ih ihSecond =>
      obtain ⟨kept, keptToo⟩ := Bool.and_eq_true_iff.mp unchanged
      simp only [Layout.tasks, List.mem_append] at faults
      rw [Layout.tasks, List.pairwise_append] at single
      rcases ih kept (fun fault held => faults fault (.inl held)) single.1 with
        ⟨_, one⟩ | ⟨_, stopped⟩
      · rcases ihSecond keptToo (fun fault held => faults fault (.inr held)) single.2.1 with
          ⟨_, other⟩ | ⟨_, stopped⟩
        · refine .inl ⟨_, one.swap other fun there => ?_⟩
          refine Bool.eq_false_iff.mpr fun thereToo => ?_
          exact Bool.false_ne_true ((one.single other single.2.2 thereToo).symm.trans there)
        · exact .inr ⟨_, .swap_right one stopped⟩
      · exact .inr ⟨_, stopped.swap_left⟩
  | unwritten layout ih =>
      refine (ih unchanged faults single).imp ?_ ?_
      · rintro ⟨mention, inner⟩
        refine ⟨.absent "", .absent fun literal other like => ?_⟩
        cases like with
        | unwritten below => exact .unwritten (inner.writes literal _ below)
      · rintro ⟨missing, stopped⟩
        refine ⟨missing, fun literal other like => ?_⟩
        cases like with
        | unwritten below =>
            exact andThen_outcome_error_iff.mpr (.inl (stopped literal _ below))
  | clause layout ih =>
      refine (ih unchanged faults single).imp ?_ ?_
      · rintro ⟨mention, inner⟩
        exact ⟨_, inner.clause⟩
      · rintro ⟨missing, stopped⟩
        refine ⟨missing, fun literal other like => ?_⟩
        cases like with
        | clause below => exact andThen_outcome_error_iff.mpr (.inl (stopped literal _ below))
  | line layout ih =>
      refine (ih unchanged faults single).imp ?_ ?_
      · rintro ⟨mention, inner⟩
        exact ⟨_, inner.line⟩
      · rintro ⟨missing, stopped⟩
        refine ⟨missing, fun literal other like => ?_⟩
        cases like with
        | line below => exact andThen_outcome_error_iff.mpr (.inl (stopped literal _ below))
  | changed change layout => cases unchanged

/-- When the layouts that a node has for a literal are as expected, so is its text. -/
theorem Node.exists_mention {options : Options} {node : Node} {position : Position}
    {filled : Node → Node} {P : Node → Prop} (readable : node.Readable) (usable : position.IsUsable)
    (single : (node.tasks options position).Pairwise (Task.NotBoth mentions))
    (expected : ∀ literal, P literal →
      (node.layout options position).Like
          (Task.Expected (PhpRendering.render options) property mentions literal)
          ((filled literal).layout options position) ∧
        node.owesTerminator options position = (filled literal).owesTerminator options position) :
    ∃ mention : Mention, ∀ literal, P literal →
      (PhpRendering.render options (.node (filled literal)) position).outcome =
        .ok (mention.text property literal) := by
  have faults : ∀ fault, .stop fault ∈ (node.layout options position).tasks →
      ∃ missing, fault = .missing missing := by
    intro fault held
    rw [node.layout_tasks] at held
    exact Node.tasks_safe options readable usable _ held
  rw [← node.layout_tasks] at single
  let owes := node.owesTerminator options position
  have cases_layout : (∃ mention, (node.layout options position).HasMention
        (PhpRendering.render options) property mentions mention) ∨
      ∃ missing, (node.layout options position).LacksField
        (PhpRendering.render options) property mentions missing :=
    Layout.exists_mention (Node.layout_isUnchanged readable) faults single
  rcases cases_layout with ⟨mention, written⟩ | ⟨missing, lacks⟩
  · refine ⟨mention.finish fun text => Fragment.terminated ⟨text, owes⟩, fun literal allowed => ?_⟩
    obtain ⟨like, same⟩ := expected literal allowed
    rw [Mention.finish_text (Text.endsOnly_terminated owes),
      render_of_writes (written.writes _ _ like), ← same]
  · refine ⟨.absent "", fun literal allowed => ?_⟩
    rw [render_outcome, lacks _ _ (expected literal allowed).1]
    rfl

end Layouts

end PhpRendering
