import PhpRendering.Proofs.RuleLayout

/-!
# Outputs of rules

A rule that is finished yields an output of the form that its node tells, and shows what
its layout writes. Most rules write a text; the others are a literal, a declarator that
stands for its target, a sum, and a call that continues its callee. A node of which a
field is missing yields the empty text, so its form has to be that of a text.
-/

namespace PhpRendering

open Emission

def Rendering.finished (rendering : Rendering) : Emission Fault Output :=
  rendering.andThen fun fragment => ofShape fragment.finished

theorem Fragment.finished_plain (output : Output) :
    Fragment.finished ⟨output, false⟩ = .ok output := by
  unfold Fragment.finished
  split
  · next same =>
      cases same
      rfl
  · next same =>
      cases same
      rfl

/-- Only a text can owe a terminator. -/
theorem Fragment.finished_eq {output : Output} {owesTerminator : Bool}
    (owes : output.form.isText = false → owesTerminator = true) :
    ofShape (Fragment.finished ⟨output, owesTerminator⟩) =
      (demand output.form.isText).andThen fun _ =>
        .done (.text (Fragment.terminated ⟨output.shown, owesTerminator⟩)) := by
  cases isText : output.form.isText with
  | true =>
      obtain ⟨text, rfl⟩ := Output.exists_text (Form.isText_iff.mp isText)
      rfl
  | false =>
      obtain rfl := owes isText
      unfold Fragment.finished
      split
      · next same =>
          cases same
          cases isText
      · next same =>
          cases same
          rfl

structure Emission.Shows (form : Form) (emission : Emission Fault Output)
    (texts : Emission Fault String) : Prop where
  shown : (emission.andThen fun output => .done output.shown) = texts
  forms : ∀ output, emission.outcome = .ok output → output.form = form
  absent : ∀ missing, emission.outcome = .error (.missing missing) → form = .text

namespace Emission.Shows

variable {form : Form} {emission : Emission Fault Output} {texts : Emission Fault String}

theorem of_texts (texts : Emission Fault String) :
    (texts.andThen fun text => .done (Output.text text)).Shows .text texts where
  shown := by
    simp only [andThen_assoc, done_andThen]
    exact andThen_done texts
  forms output done := by
    obtain ⟨text, -, same⟩ := andThen_outcome_ok_iff.mp done
    cases same
    rfl
  absent _ _ := rfl

theorem of_output {output : Output} (same : output.form = form) :
    (Emission.done output).Shows form (.done output.shown) where
  shown := done_andThen _ _
  forms other done := by
    cases done
    exact same
  absent _ failed := by cases failed

theorem of_crash (form : Form) (crash : Crash) :
    (Emission.fail (.crash crash)).Shows form (.fail (.crash crash)) where
  shown := rfl
  forms _ done := by cases done
  absent _ failed := by cases failed

theorem of_rendering {emit : Emitter} {rendering : Rendering} {layout : Layout}
    {owesTerminator : Bool} (writes : rendering = layout.rendering emit.shown owesTerminator) :
    rendering.finished.Shows .text (layout.closed emit.shown owesTerminator) := by
  have same : rendering.finished =
      (layout.closed emit.shown owesTerminator).andThen fun text => .done (.text text) := by
    subst writes
    simp only [Rendering.finished, Layout.rendering, Layout.closed, andThen_assoc, done_andThen]
    rfl
  rw [same]
  exact of_texts _

/-- What comes first may only miss a field where the form is that of a text. -/
theorem andThen {α : Type} {first : Emission Fault α} {next : α → Emission Fault Output}
    {nextTexts : α → Emission Fault String}
    (missing : ∀ missing, first.outcome = .error (.missing missing) → form = .text)
    (all : ∀ result, first.outcome = .ok result → (next result).Shows form (nextTexts result)) :
    (first.andThen next).Shows form (first.andThen nextTexts) where
  shown := by
    rw [andThen_assoc]
    exact andThen_congr fun result done => (all result done).shown
  forms output done := by
    obtain ⟨result, found, done⟩ := andThen_outcome_ok_iff.mp done
    exact (all result found).forms output done
  absent absent failed := by
    obtain failed | ⟨result, found, failed⟩ := andThen_outcome_error_iff.mp failed
    · exact missing absent failed
    · exact (all result found).absent absent failed

/-- What comes first may fail for any reason but a missing field. -/
theorem after {α : Type} {first : Emission Fault α} {next : α → Emission Fault Output}
    {nextTexts : α → Emission Fault String}
    (complete : ∀ {missing}, first.outcome ≠ .error (.missing missing))
    (all : ∀ result, first.outcome = .ok result → (next result).Shows form (nextTexts result)) :
    (first.andThen next).Shows form (first.andThen nextTexts) :=
  .andThen (fun _ failed => absurd failed complete) all

end Emission.Shows

theorem ofShape_ok {α : Type} (found : α) : ofShape (.ok found) = .done found := rfl

/-! ## What cannot miss a field -/

section Complete

variable {emit : Emitter} {missing : Missing}

theorem insideRule_not_missing {α : Type} (emission : Emission Crash α) :
    emission.insideRule.outcome ≠ .error (.missing missing) := by
  obtain ⟨events, outcome⟩ := emission
  cases outcome <;> exact fun impossible => nomatch impossible

theorem ofShape_not_missing {α : Type} (result : Except Crash α) :
    (ofShape result).outcome ≠ .error (.missing missing) := by
  cases result <;> exact fun impossible => nomatch impossible

theorem Rule.children_not_missing (position : Position) (items : List Value) :
    (children emit position items).outcome ≠ .error (.missing missing) := by
  unfold children
  induction items with
  | nil => exact fun impossible => nomatch impossible
  | cons item rest ih =>
      intro failed
      obtain failed | ⟨output, -, failed⟩ := andThen_outcome_error_iff.mp failed
      · exact insideRule_not_missing _ failed
      · obtain failed | ⟨outputs, -, failed⟩ := andThen_outcome_error_iff.mp failed
        · exact ih failed
        · cases failed

theorem Rule.arguments_not_missing (node : Node) :
    (arguments emit node).outcome ≠ .error (.missing missing) := by
  intro failed
  obtain failed | ⟨items, -, failed⟩ := andThen_outcome_error_iff.mp failed
  · exact ofShape_not_missing _ failed
  · exact children_not_missing _ _ failed

theorem Rule.required_absent {node : Node} {field : String}
    (failed : (Rule.required node field).outcome = .error (.missing missing)) :
    node.field? field = none := by
  unfold Rule.required Node.require at failed
  cases found : node.field? field with
  | none => rfl
  | some value =>
      rw [found] at failed
      cases failed

/-- A field that is missing has the form of a text. -/
theorem Rule.form_of_absent {node : Node} {field : String}
    (failed : (Rule.required node field).outcome = .error (.missing missing)) :
    (node.field field).form = .text := by
  rw [Node.field?_eq_none_iff.mp (required_absent failed)]
  rfl

end Complete

/-! ## Kinds whose nodes yield texts -/

/-- The constructs whose nodes may yield anything but a text. -/
theorem Construct.of_form {node : Node} (other : node.form ≠ .text) :
    ∃ construct, Construct.ofKind? node.kind = some construct ∧
      construct ∈ [Construct.literal, .variableDeclarator, .update, .call] := by
  cases known : Construct.ofKind? node.kind with
  | none => exact absurd (Node.form_of_unknown known) other
  | some construct =>
      rw [Node.form_eq known] at other
      refine ⟨construct, rfl, ?_⟩
      cases construct <;> first | decide | exact absurd rfl other

theorem Rule.isDeclarationKind_of_form {node : Node} (other : node.form ≠ .text) :
    isDeclarationKind node.kind = false := by
  obtain ⟨construct, known, among⟩ := Construct.of_form other
  have table : ∀ entry ∈ Construct.byKind,
      entry.2 ∈ [Construct.literal, .variableDeclarator, .update, .call] →
        isDeclarationKind entry.1 = false := by decide
  exact table _ (Construct.mem_byKind known) among

theorem Rule.form_of_methodSubstitute {options : Options} {called : Node} {substitute : Substitute}
    (asked : methodSubstitute? options called = .ok (some substitute)) : called.form = .text := by
  unfold methodSubstitute? at asked
  split at asked
  · next kind => exact Node.form_of_kind kind (by decide)
  · cases asked

section Rules

variable {emit : Emitter} {options : Options} {node : Node} {position : Position}

namespace Layout

theorem literal_shows (known : Construct.ofKind? node.kind = some .literal) :
    (Rule.literal node).finished.Shows node.form
      ((Construct.literal.layout options node position).closed emit.shown false) := by
  rw [Node.form_eq known]
  simp only [Rule.literal, Construct.layout, Layout.optional, Construct.form, Rendering.finished,
    closed]
  cases node.field? "raw" with
  | some raw =>
      simp only [pure_eq, done_andThen, Fragment.finished_plain, write]
      exact .of_output rfl
  | none =>
      simp only [pure_eq, done_andThen, Fragment.finished_plain, write]
      exact .of_output rfl

section Fits

variable (fits : emit.Fits)
include fits

/-! ## Declarators -/

theorem variableDeclarator_shows (known : Construct.ofKind? node.kind = some .variableDeclarator) :
    (Rule.variableDeclarator emit node).finished.Shows node.form
      ((Construct.variableDeclarator.layout options node position).closed emit.shown
        (node.has "init")) := by
  rw [Node.form_eq known]
  cases given : node.field? "init" with
  | some init =>
      simp only [Construct.form, Node.has, given, Option.isSome_some, if_true]
      refine .of_rendering ?_
      simp only [Construct.layout, Rule.variableDeclarator, rendering, write, write_child,
        write_optionalChild, given, Rule.child_shown, Rule.shown_eq, bind_eq, pure_eq, andThen_assoc,
        done_andThen, String.append_assoc, String.append_empty]
  | none =>
      simp only [Construct.form, Node.has, given, Option.isSome_none, Bool.false_eq_true, if_false,
        Construct.layout, Rule.variableDeclarator, Rendering.finished, closed, write, write_child,
        write_optionalChild, Rule.child_shown, Fragment.finished_plain, bind_eq, pure_eq,
        andThen_assoc, done_andThen, String.append_empty]
      refine .andThen (fun _ => Rule.form_of_absent) fun id found => ?_
      refine .after (insideRule_not_missing _) fun target done => ?_
      refine .of_output ?_
      rw [Rule.child_form fits done, Node.field_of_field? (Rule.required_outcome_ok_iff.mp found)]

/-! ## Sums -/

omit fits in
theorem write_augend (node : Node) :
    (augend node).write emit.shown =
      ((child node "argument").write emit.shown).andThen fun text =>
        .done ((node.field "argument").form.start (node.field "operator") text) := by
  unfold augend Form.start
  cases (node.field "argument").form with
  | text => exact (andThen_done _).symm
  | list isEmpty => cases node.field "operator" <;> rfl
  | _ => rfl

theorem update_shows (known : Construct.ofKind? node.kind = some .update) :
    (Rule.update emit node).finished.Shows node.form
      ((Construct.update.layout options node position).closed emit.shown false) := by
  rw [Node.form_eq known]
  simp only [Construct.form, Construct.layout, Rule.update, update, Rendering.finished, closed, write,
    write_augend, write_child, write_needed, write_shaped, Rule.child_shown, Fragment.finished_plain,
    bind_eq, pure_eq, andThen_assoc, done_andThen]
  refine .andThen (fun _ failed => ?_) fun argument found => ?_
  · rw [Rule.form_of_absent failed]
    cases node.field? "operator" with
    | none => rfl
    | some operator =>
        cases operator with
        | scalar scalar => cases scalar <;> rfl
        | _ => rfl
  refine .after (insideRule_not_missing _) fun output done => ?_
  have same : output.form = (node.field "argument").form := by
    rw [Rule.child_form fits done, Node.field_of_field? (Rule.required_outcome_ok_iff.mp found)]
  refine .andThen (fun _ failed => ?_) fun operator read => ?_
  · rw [Rule.required_absent failed]
  have held := Rule.required_outcome_ok_iff.mp read
  have total := output.form_plus operator
  rw [held, Node.field_of_field? held, ← same]
  dsimp only
  rw [← total]
  cases added : output.plus operator with
  | error crash => exact .of_crash _ _
  | ok sum =>
      simp only [Except.map, ofShape_ok, done_andThen]
      rw [← Output.shown_plus added]
      exact .of_output rfl

/-! ## Calls -/

theorem write_arguments (node : Node) :
    (arguments node).write emit.shown =
      (Rule.arguments emit node).andThen fun outputs =>
        (Rule.texts outputs).andThen fun operands => .done (Rule.commaSeparated operands) := by
  unfold arguments Rule.arguments
  rw [write_wantedItems fits node "arguments" _ _ (write_separatedBy ", ")]
  simp only [bind_eq, andThen_assoc]
  rfl

omit fits in
/-- The callee and the arguments of a call miss no field of it. -/
theorem called_shows {form : Form} {callee : Value} {place : Position}
    {next : Output → List String → Emission Fault Output}
    {nextTexts : Output → List String → Emission Fault String}
    (all : ∀ function operands, (Rule.child emit callee place).outcome = .ok function →
      (next function operands).Shows form (nextTexts function operands)) :
    ((Rule.child emit callee place).andThen fun function =>
        (Rule.arguments emit node).andThen fun outputs =>
          (Rule.texts outputs).andThen fun operands => next function operands).Shows form
      ((Rule.child emit callee place).andThen fun function =>
        (Rule.arguments emit node).andThen fun outputs =>
          (Rule.texts outputs).andThen fun operands => nextTexts function operands) := by
  refine .after (insideRule_not_missing _) fun function done => ?_
  refine .after (Rule.arguments_not_missing _) fun outputs _ => ?_
  exact .after (ofShape_not_missing _) fun operands _ => all function operands done

/-- A call that continues the output of its callee. -/
theorem continued_shows (callee : Value) :
    (Rendering.finished do
      let function ← Rule.child emit callee { Position.within node with isCallee := true }
      let operands ← Rule.texts (← Rule.arguments emit node)
      let called ← ofShape (function.continued (Rule.functionCall "" operands))
      ofShape position.checkParent
      return ⟨called, position.inStatement⟩).Shows
      (if callee.form.isList then .list false else .text)
      ((continued node position callee).closed emit.shown position.inStatement) := by
  unfold continued
  cases form : callee.form with
  | text =>
      simp only [Rendering.finished, closed, joined, write, write_arguments fits, write_shaped,
        Rule.child_shown, bind_eq, pure_eq, andThen_assoc, done_andThen, Form.isList]
      refine called_shows fun function operands done => ?_
      rw [Output.continued_text ((Rule.child_form fits done).trans form), ofShape_ok, done_andThen]
      refine .after (ofShape_not_missing _) fun _ _ => ?_
      simp only [Rule.functionCall, String.empty_append, String.append_empty, String.append_assoc]
      exact .of_output rfl
  | list isEmpty =>
      simp only [Rendering.finished, closed, joined, write, write_arguments fits, write_shaped,
        Rule.child_shown, bind_eq, pure_eq, andThen_assoc, done_andThen, Form.isList]
      refine called_shows fun function operands done => ?_
      have something : Rule.functionCall "" operands ≠ "" := by
        unfold Rule.functionCall
        simp [← String.toList_inj]
      obtain ⟨longer, whole, kept, shown⟩ :=
        Output.continued_list ((Rule.child_form fits done).trans form) something
      rw [whole, ofShape_ok, done_andThen]
      refine .after (ofShape_not_missing _) fun _ _ => ?_
      have single : longer.form.isText = false := by rw [kept]; rfl
      cases alone : position.inStatement with
      | true =>
          rw [Fragment.finished_eq fun _ => rfl, single]
          exact .of_crash _ _
      | false =>
          simp only [Fragment.finished_plain, ofShape_ok, Bool.false_eq_true, if_false, write,
            done_andThen, String.append_empty]
          simp only [Rule.functionCall, String.empty_append, String.append_assoc] at shown
          rw [← shown]
          exact .of_output kept
  | _ =>
      simp only [Rendering.finished, closed, joined, write, write_arguments fits,
        Rule.child_shown, bind_eq, pure_eq, andThen_assoc, done_andThen, fail_andThen]
      refine called_shows fun function operands done => ?_
      have same := (Rule.child_form fits done).trans form
      rw [Output.continued_error (by rw [same]; rfl) (by rw [same]; rfl)]
      exact .of_crash _ _

theorem call_shows (known : Construct.ofKind? node.kind = some .call) :
    (Rule.call emit options node position).finished.Shows node.form
      ((call options node position).closed emit.shown
        (Construct.call.owesTerminator options node position)) := by
  rw [Node.form_eq known]
  simp only [Construct.form, Rule.call, call, closed, Rendering.finished, write_needed,
    write_shaped, bind_eq, andThen_assoc]
  refine .andThen (fun _ failed => ?_) fun callee found => ?_
  · simp only [Rule.form_of_absent failed, Form.isList, Bool.false_eq_true, if_false]
  have held := Node.field_of_field? (Rule.required_outcome_ok_iff.mp found)
  refine .after (ofShape_not_missing _) fun called same => ?_
  obtain rfl := Value.asNode_eq_ok (ofShape_outcome_ok_iff.mp same)
  refine .after (ofShape_not_missing _) fun substitute asked => ?_
  have chosen := ofShape_outcome_ok_iff.mp asked
  have owes : Construct.call.owesTerminator options node position =
      (substitute.isNone && position.inStatement) := by
    simp only [Construct.owesTerminator, held, Value.node?, Option.map_some, chosen]
    cases substitute <;> rfl
  simp only [held, owes]
  cases substitute with
  | none => exact continued_shows fits _
  | some substitute =>
      simp only [Value.form, Rule.form_of_methodSubstitute chosen, write_substituted fits, pure_eq,
        andThen_assoc, done_andThen, Form.isList, Bool.false_eq_true, if_false]
      refine .andThen (fun _ _ => rfl) fun _ _ => .of_output rfl

/-! ## Statements -/

theorem expressionStatement_shows :
    (Rule.expressionStatement emit node).finished.Shows .text
      ((Construct.expressionStatement.layout options node position).closed emit.shown true) := by
  simp only [Construct.layout, Layout.text, Rule.expressionStatement, Rendering.finished, closed,
    write, write_needed, write_wanting, Rule.child_shown, bind_eq, pure_eq, andThen_assoc,
    done_andThen]
  refine .andThen (fun _ _ => rfl) fun expression _ => ?_
  refine .andThen (fun _ _ => rfl) fun output done => ?_
  rw [Fragment.finished_eq fun _ => rfl, Rule.child_form fits done]
  exact .andThen (fun _ _ => rfl) fun _ _ => .of_output rfl

theorem exportDeclaration_shows :
    (Rule.exportDeclaration emit node).finished.Shows .text
      ((exported node).closed emit.shown
        (Construct.exportDeclaration.owesTerminator options node position)) := by
  unfold Rule.exportDeclaration exported
  cases found : node.field? "declaration" with
  | none =>
      have owes : Construct.exportDeclaration.owesTerminator options node position = false := by
        simp only [Construct.owesTerminator, Node.field?_eq_none_iff.mp found]
      rw [owes]
      refine .of_rendering ?_
      simp only [rendering, write_needed, write_statements fits, bind_eq, pure_eq, andThen_assoc]
  | some declaration =>
      simp only [Rendering.finished, closed, write, write_wanting, write_shaped, Rule.child_shown,
        bind_eq, pure_eq, andThen_assoc, done_andThen]
      refine .andThen (fun _ _ => rfl) fun output done => ?_
      refine .andThen (fun _ _ => rfl) fun exported same => ?_
      obtain rfl := Value.asNode_eq_ok (ofShape_outcome_ok_iff.mp same)
      have owes : Construct.exportDeclaration.owesTerminator options node position =
          !Rule.isDeclarationKind exported.kind := by
        simp only [Construct.owesTerminator, Node.field_of_field? found]
      have form := Rule.child_form fits done
      rw [owes, Fragment.finished_eq fun other => ?_, form, String.append_empty]
      · exact .andThen (fun _ _ => rfl) fun _ _ => .of_output rfl
      · rw [Rule.isDeclarationKind_of_form, Bool.not_false]
        intro text
        rw [form, Value.form, text] at other
        cases other

theorem functionExpression_shows :
    (Rule.functionExpression emit node position).finished.Shows .text
      ((Construct.functionExpression.layout options node position).closed emit.shown false) := by
  simp only [Construct.layout, Rule.functionExpression, Rendering.finished, closed, write,
    Rule.child_shown, Fragment.finished_plain, bind_eq, pure_eq, andThen_assoc, done_andThen]
  refine .andThen (fun _ _ => rfl) fun output done => .of_output ?_
  rw [Rule.child_form fits done]
  rw [Value.form]
  exact Rule.form_asDeclaration _ _

end Fits

end Layout

open Layout in
/-- Every rule shows the layout of its construct. -/
theorem Construct.rule_shows (fits : emit.Fits) (options : Options) (position : Position)
    {construct : Construct} (known : Construct.ofKind? node.kind = some construct) :
    (construct.rule emit options node position).finished.Shows node.form
      ((construct.layout options node position).closed emit.shown
        (construct.owesTerminator options node position)) := by
  cases construct
  case literal => exact literal_shows known
  case variableDeclarator => exact variableDeclarator_shows fits known
  case update => exact update_shows fits known
  case call => exact call_shows fits known
  all_goals rw [Node.form_eq known]
  case expressionStatement => exact expressionStatement_shows fits
  case exportDeclaration => exact exportDeclaration_shows fits
  case functionExpression => exact functionExpression_shows fits
  all_goals refine .of_rendering ?_
  case statementList =>
    simp only [rule, layout, rendering, Rule.statementList, write_needed, write_statements fits,
      bind_eq, pure_eq, andThen_assoc]
    rfl
  case variableDeclaration =>
    simp only [rule, layout, rendering, Rule.variableDeclaration, write_needed, write_shaped,
      write_wanting, bind_eq, pure_eq, andThen_assoc]
    refine andThen_congr fun list _ => ofShape_congr fun items listed => ?_
    have wanted := write_wanted fits listed (.item "declarations") (.within node) joined _
      write_joined
    have closed := congrArg (Emission.andThen · fun text => .done (Fragment.plain text)) wanted
    simp only [andThen_assoc, done_andThen] at closed
    simp only [done_andThen]
    exact closed.symm
  case identifier =>
    simp only [rule, layout, rendering, Rule.identifier]
    split
    · rfl
    · split
      · exact (done_andThen _ _).symm
      · exact (done_andThen _ _).symm
  case punctuator =>
    simp only [rule, layout, rendering, Rule.punctuator, write_needed, write, bind_eq, pure_eq,
      andThen_assoc, done_andThen]
    rfl
  case selfReference => exact (done_andThen _ _).symm
  case binary => exact binary_eq
  case construction =>
    simp only [rule, layout, rendering, Rule.construction, write, write_wanting, Rule.text_eq fits,
      Value.form, bind_eq, pure_eq, andThen_assoc, done_andThen]
    rfl
  case member => exact member_eq fits
  case functionDeclaration => exact functionDeclaration_eq fits
  case classDeclaration => exact classDeclaration_eq fits
  case methodDefinition => exact methodDefinition_eq fits
  case objectLiteral =>
    simp only [rule, layout, rendering, Rule.objectLiteral, joined, write,
      write_wantedItems fits _ _ _ _ (write_separatedBy ", "), Rule.commaSeparated, bind_eq, pure_eq,
      andThen_assoc, done_andThen, String.append_assoc, String.append_empty]
    rfl
  case arrayLiteral => exact arrayLiteral_eq fits
  case property => exact property_eq
  case returnStatement => exact returnStatement_eq fits
  case ifStatement =>
    simp only [rule, layout, rendering, Rule.ifStatement, joined, write, write_child,
      write_text fits, write_alternate fits, Rule.shown_eq, bind_eq, pure_eq, andThen_assoc,
      done_andThen, String.append_assoc, String.append_empty]
    rfl
  case forStatement => exact forStatement_eq fits
  case forInStatement =>
    simp only [rule, layout, rendering, Rule.forInStatement, Rule.inline, joined, write, write_child,
      write_text fits, Rule.shown_eq, bind_eq, pure_eq, andThen_assoc, done_andThen,
      String.append_assoc, String.append_empty]
    rfl
  case switchStatement => exact switchStatement_eq fits
  case switchCase => exact switchCase_eq fits
  case breakStatement => exact (done_andThen _ _).symm
  case moduleDeclaration => exact moduleDeclaration_eq fits
  case importDeclaration =>
    simp only [rule, layout, rendering, Rule.importDeclaration,
      write_wantedItems fits _ _ _ _ write_joined, bind_eq, pure_eq, andThen_assoc, done_andThen]
    rfl
  case importSpecifier => exact importSpecifier_eq

/-! ## The boundary of a node -/

theorem atBoundary_finished (rendering : Rendering) :
    atBoundary (.text "") .ok rendering.finished =
      atBoundary (.text "") Fragment.finished rendering := by
  obtain ⟨events, outcome⟩ := rendering
  cases outcome with
  | error fault => cases fault <;> rfl
  | ok fragment =>
      simp only [Rendering.finished, Emission.andThen, ofShape, List.append_nil, atBoundary]
      cases fragment.finished <;> rfl

/-- What is shown of a node whose output has the form of the node. -/
theorem Emission.Shows.atBoundary {form : Form} {emission : Emission Fault Output}
    {texts : Emission Fault String} (shows : emission.Shows form texts) :
    ((atBoundary (.text "") .ok emission).andThen fun output => .done output.shown) =
        atBoundary "" .ok texts ∧
      ∀ output, (atBoundary (.text "") .ok emission).outcome = .ok output → output.form = form := by
  obtain ⟨rfl, forms, absent⟩ := shows
  obtain ⟨events, outcome⟩ := emission
  cases outcome with
  | ok output =>
      refine ⟨?_, fun other done => ?_⟩
      · simp only [PhpRendering.atBoundary, Emission.andThen, Emission.done]
      · cases done
        exact forms output rfl
  | error fault =>
      cases fault with
      | crash crash =>
          refine ⟨rfl, fun other done => ?_⟩
          cases done
      | missing missing =>
          refine ⟨?_, fun other done => ?_⟩
          · simp only [PhpRendering.atBoundary, Emission.andThen, Emission.done, List.append_nil]
            rfl
          · cases done
            exact (absent missing rfl).symm

end Rules

def renderNode (render : Renderer) (options : Options) (node : Node) (position : Position) :
    Emission Crash String :=
  atBoundary "" .ok
    ((node.layout options position).closed render (node.owesTerminator options position))

/-- A rendered node shows its layout, and its output has its form. -/
theorem emitNode_shows {emit : Emitter} (fits : emit.Fits) (options : Options) (node : Node)
    (position : Position) :
    ((emitNode emit options node position).andThen fun output => .done output.shown) =
        renderNode emit.shown options node position ∧
      ∀ output, (emitNode emit options node position).outcome = .ok output →
        output.form = node.form := by
  unfold emitNode renderNode Node.layout Node.owesTerminator
  cases known : Construct.ofKind? node.kind with
  | none =>
      refine ⟨rfl, fun output done => ?_⟩
      cases done
      exact (Node.form_of_unknown known).symm
  | some construct =>
      have shows := Construct.rule_shows fits options position known
      dsimp only
      rw [← atBoundary_finished]
      exact shows.atBoundary

theorem emitWithin_fits (options : Options) (depth : Nat) : (emitWithin options depth).Fits := by
  induction depth with
  | zero =>
      intro value position output done
      cases value <;> cases done
  | succ depth ih =>
      intro value position output done
      cases value with
      | node node => exact (emitNode_shows ih options node position).2 output done
      | _ => cases done

def emitter (options : Options) : Emitter := fun value position =>
  emitWithin options (3 * value.height) value position

theorem emitter_shown (options : Options) : (emitter options).shown = render options := rfl

theorem emitter_fits (options : Options) : (emitter options).Fits := fun value =>
  emitWithin_fits options (3 * value.height) value

theorem renderWithin_succ (options : Options) (depth : Nat) (node : Node) (position : Position) :
    renderWithin options (depth + 1) (.node node) position =
      renderNode (renderWithin options depth) options node position :=
  (emitNode_shows (emitWithin_fits options depth) options node position).1

end PhpRendering
