import PhpRendering.Proofs.Chain
import PhpRendering.Proofs.Malformed
import PhpRendering.Proofs.Traces

/-!
# What a text was made of

The rules of layouts read backwards. A layout that stops at no missing field is written or
crashes. So a node with such a layout has exactly the texts that its layout writes, and the
text of a list has a text for each of its items.
-/

namespace PhpRendering

open Emission

/-- A failure is no visit, whatever fails. -/
theorem Task.stop_ne_visit (fault : Fault) (source : Source) (value : Value)
    (place : Position) : Task.stop fault ≠ .visit source value place := by
  rintro ⟨⟩

namespace Layout

variable {render : Renderer} {text : String}

/-- A layout that stops at no missing field fails for no missing field: a failure in a slot
is a crash. -/
theorem write_ne_missing {layout : Layout} (fine : MissNothing layout.tasks) (missing : Missing) :
    (layout.write render).outcome ≠ .error (.missing missing) := by
  induction layout with
  | word text => rintro ⟨⟩
  | visit source value place =>
      simp only [write, Rule.child, insideRule]
      cases (render value place).outcome with
      | ok text => rintro ⟨⟩
      | error crash => rintro ⟨⟩
  | enter function => rintro ⟨⟩
  | report diagnostic => rintro ⟨⟩
  | stop fault =>
      rintro ⟨⟩
      exact fine _ (List.mem_singleton_self _) missing rfl
  | next first second one other =>
      obtain ⟨before, after⟩ := List.forall_mem_append.mp fine
      intro failed
      rcases andThen_outcome_error_iff.mp failed with early | ⟨_, -, late⟩
      · exact one before early
      · rcases andThen_outcome_error_iff.mp late with late | ⟨_, -, impossible⟩
        · exact other after late
        · cases impossible
  | swap first second one other =>
      obtain ⟨before, after⟩ := List.forall_mem_append.mp fine
      intro failed
      rcases andThen_outcome_error_iff.mp failed with early | ⟨_, -, late⟩
      · exact one before early
      · rcases andThen_outcome_error_iff.mp late with late | ⟨_, -, impossible⟩
        · exact other after late
        · cases impossible
  | unwritten layout ih | clause layout ih | line layout ih | changed change layout ih =>
      intro failed
      rcases andThen_outcome_error_iff.mp failed with early | ⟨_, -, impossible⟩
      · exact ih fine early
      · cases impossible

/-- The text of separated layouts is made of a text for each of them. -/
theorem Writes.exists_separated {separator : String} {layouts : List Layout}
    (writes : (Layout.separatedBy separator layouts).Writes render text) :
    ∃ texts, List.Forall₂ (Layout.Writes render) layouts texts ∧
      text = Text.separatedBy separator texts := by
  induction layouts generalizing text with
  | nil => exact ⟨[], .nil, writes_word_iff.mp writes⟩
  | cons first rest ih =>
      cases rest with
      | nil => exact ⟨[text], .cons writes .nil, rfl⟩
      | cons second later =>
          obtain ⟨before, _, one, following, rfl⟩ := writes_next_iff.mp writes
          obtain ⟨_, after, word, others, rfl⟩ := writes_next_iff.mp following
          obtain ⟨texts, all, rfl⟩ := ih others
          cases all with
          | cons next all =>
              refine ⟨_, .cons one (.cons next all), ?_⟩
              rw [writes_word_iff.mp word, Text.separatedBy_cons_cons, String.append_assoc]

/-- The slots for the values of a list are filled by texts of the values only, when these yield
texts. -/
theorem rendered_of_writes_slots {source : Nat → Source} {position : Position}
    {values : List Value} {texts : List String}
    (all : List.Forall₂ (Layout.Writes render) (slots source position values) texts)
    (yield : ∀ value ∈ values, value.form.isText = true) :
    List.Forall₂ (fun value text => value.form.isText = true ∧
      (render value position).outcome = .ok text) values texts := by
  unfold slots at all
  generalize 0 = start at all
  induction values generalizing start texts with
  | nil =>
      cases all
      exact .nil
  | cons value rest ih =>
      obtain ⟨here, others⟩ := List.forall_mem_cons.mp yield
      cases all with
      | cons first later =>
          exact .cons ⟨here, writes_visit_iff.mp first⟩ (ih others (start + 1) later)

end Layout

section Node

variable {options : Options} {node callee : Node} {position : Position} {text : String}

/-- A node that lacks nothing has the texts that its layout writes and no others. -/
theorem render_ok_iff (fine : MissNothing (node.tasks options position)) :
    (render options (.node node) position).outcome = .ok text ↔
      ∃ written, (node.layout options position).Writes (render options) written ∧
        text = Fragment.terminated ⟨written, node.owesTerminator options position⟩ := by
  constructor
  · intro rendered
    rw [render_outcome] at rendered
    split at rendered
    · next written outcome =>
        exact ⟨written, Layout.writes_iff.mpr outcome, (Except.ok.inj rendered).symm⟩
    · next missing outcome =>
        rw [← Node.layout_tasks] at fine
        exact absurd outcome (Layout.write_ne_missing fine missing)
    · cases rendered
  · rintro ⟨written, writes, rfl⟩
    exact render_of_writes writes

/-- What is written for the arguments of a call, one after another. -/
theorem Node.writes_arguments_iff :
    (Layout.arguments node).Writes (render options) text ↔
      ∃ texts, node.HasOperands options texts ∧ text = Rule.commaSeparated texts := by
  constructor
  · intro writes
    obtain ⟨yield, writes⟩ := Layout.writes_wanting_iff.mp writes
    obtain ⟨items, listed, writes⟩ := Layout.writes_shaped_iff.mp writes
    obtain ⟨texts, all, rfl⟩ := writes.exists_separated
    rw [Node.itemsYieldText_eq listed] at yield
    exact ⟨texts, ⟨items, listed,
      Layout.rendered_of_writes_slots all (List.all_eq_true.mp yield)⟩, rfl⟩
  · rintro ⟨texts, operands, rfl⟩
    exact Layout.writes_wanting_iff.mpr
      ⟨operands.yield, operands.writes fun _ all => .separatedBy _ all⟩

/-! ## Calls for which nothing is asked -/

section Unasked

variable (kind : node.kind = "CallExpression") (held : node.field "callee" = .node callee)
  (nothing : Rule.methodSubstitute? options callee = .ok none)
include kind held nothing

theorem Node.unaskedCall_layout :
    node.layout options position = .continued node position (.node callee) := by
  have known : Construct.ofKind? node.kind = some .call := by
    rw [kind]
    rfl
  rw [Node.layout_eq known]
  simp only [Construct.layout, Layout.call, Layout.needed, Node.require, Node.field?_node held,
    Layout.shaped, Value.asNode, nothing]

theorem Node.unaskedCall_tasks :
    node.tasks options position =
      Task.child "callee" { Position.within node with isCallee := true } (.node callee) ++
        Task.continued node position (.node callee) := by
  have known : Construct.ofKind? node.kind = some .call := by
    rw [kind]
    rfl
  rw [Node.tasks_eq known]
  simp only [Construct.tasks, Construct.parts, List.flatMap_cons, List.flatMap_nil, List.append_nil,
    Part.tasks, Task.needed, Node.require, Node.field?_node held, Task.shaped, Value.asNode, nothing]

theorem Node.unaskedCall_owesTerminator :
    node.owesTerminator options position = position.inStatement := by
  have known : Construct.ofKind? node.kind = some .call := by
    rw [kind]
    rfl
  rw [Node.owesTerminator_eq known]
  simp [Construct.owesTerminator, held, Value.node?, nothing]

theorem Node.unaskedCall_missNothing : MissNothing (node.tasks options position) := by
  rw [Node.unaskedCall_tasks kind held nothing]
  exact .append (.child _ _) (.continued _ _)

omit nothing in
theorem Node.call_form : node.form = if callee.form.isList then .list false else .text := by
  have known : Construct.ofKind? node.kind = some .call := by
    rw [kind]
    rfl
  rw [Node.form_eq known, Construct.form, held]
  rfl

/-- A call that yields a text has a callee that does. -/
theorem Node.unaskedCall_callee (yields : node.form.isText = true)
    (rendered : (render options (.node node) position).outcome = .ok text) :
    callee.form = .text := by
  have fine : MissNothing (node.tasks options position) :=
    Node.unaskedCall_missNothing kind held nothing
  obtain ⟨written, writes, -⟩ := (render_ok_iff fine).mp rendered
  rw [Node.call_form kind held] at yields
  rw [Node.unaskedCall_layout kind held nothing] at writes
  unfold Layout.continued at writes
  rw [Value.form] at writes
  cases form : callee.form with
  | text => rfl
  | list isEmpty =>
      rw [form] at yields
      cases yields
  | _ =>
      rw [form] at writes
      simp [Layout.joined] at writes

/-- The texts of a call for which nothing is asked are its callee with its arguments. -/
theorem render_unaskedCall_iff (usable : position.parentIsUsable = true)
    (calm : position.inStatement = false) :
    node.form.isText = true ∧ (render options (.node node) position).outcome = .ok text ↔
      ∃ function operands, callee.form = .text ∧
        (render options (.node callee) { Position.within node with isCallee := true }).outcome =
          .ok function ∧
        node.HasOperands options operands ∧ text = Rule.functionCall function operands := by
  have fine : MissNothing (node.tasks options position) :=
    Node.unaskedCall_missNothing kind held nothing
  have checked : position.checkParent = .ok () := by
    unfold Position.checkParent
    rw [if_pos usable]
  have layout (form : callee.form = .text) : node.layout options position =
      .joined [.visit (.field "callee") (.node callee)
          { Position.within node with isCallee := true },
        .word "(", .arguments node, .word ")", .empty] := by
    have called : (Value.node callee).form = .text := form
    rw [Node.unaskedCall_layout kind held nothing, Layout.continued_of_form called, checked]
    rfl
  constructor
  · rintro ⟨yields, rendered⟩
    have form := Node.unaskedCall_callee kind held nothing yields rendered
    rw [render_ok_iff fine, layout form, Node.unaskedCall_owesTerminator kind held nothing,
      calm] at rendered
    simp only [Layout.writes_joined_cons_iff, Layout.writes_visit_iff, Layout.writes_word_iff,
      Layout.writes_joined_nil_iff, Node.writes_arguments_iff] at rendered
    obtain ⟨_, ⟨function, _, callee, ⟨_, _, rfl, ⟨_, _, ⟨operands, given, rfl⟩,
      ⟨_, _, rfl, ⟨_, _, rfl, rfl, rfl⟩, rfl⟩, rfl⟩, rfl⟩, rfl⟩, rfl⟩ := rendered
    refine ⟨function, operands, form, callee, given, ?_⟩
    simp [Fragment.terminated, Rule.functionCall, String.append_assoc]
  · rintro ⟨function, operands, form, rendered, given, rfl⟩
    constructor
    · rw [Node.call_form kind held, form]
      rfl
    · rw [render_ok_iff fine, layout form, Node.unaskedCall_owesTerminator kind held nothing, calm]
      simp only [Layout.writes_joined_cons_iff, Layout.writes_visit_iff, Layout.writes_word_iff,
        Layout.writes_joined_nil_iff, Node.writes_arguments_iff]
      refine ⟨_, ⟨function, _, rendered, ⟨_, _, rfl, ⟨_, _, ⟨operands, given, rfl⟩,
        ⟨_, _, rfl, ⟨_, _, rfl, rfl, rfl⟩, rfl⟩, rfl⟩, rfl⟩, rfl⟩, ?_⟩
      simp [Fragment.terminated, Rule.functionCall, String.append_assoc]

end Unasked

end Node

end PhpRendering
