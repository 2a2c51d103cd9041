import PhpRendering.Proofs.Quiet

/-!
# Expressions in their places

The text of an expression depends on few marks of its place. An expression that stands
for its value has one text, whatever stands around it. As a statement it is followed by
exactly one terminator, whichever rule adds it.
-/

namespace PhpRendering

/-- Two places with the same marks for an expression, whatever stands around it and
whether that is a statement. -/
structure Position.Agrees (first second : Position) : Prop where
  parent : first.parentIsUsable = second.parentIsUsable
  target : first.isTarget = second.isTarget
  callee : first.isCallee = second.isCallee
  memberProperty : first.isMemberProperty = second.isMemberProperty
  static : first.isStatic = second.isStatic
  connective : first.connective = second.connective

def Position.IsOperand (position : Position) : Prop :=
  position.Agrees {}

theorem Position.isOperand_within {parent : Node} (other : parent.kind ≠ "UpdateExpression") :
    (Position.within parent).IsOperand :=
  ⟨rfl, beq_eq_false_iff_ne.mpr other, rfl, rfl, rfl, rfl⟩

namespace Node

variable {options : Options} {node : Node} {place other : Position}

/-- The text of a function declaration does not depend on its place. -/
theorem render_declaration (declared : Construct.ofKind? node.kind = some .functionDeclaration) :
    render options (.node node) place = render options (.node node) other := by
  have layout : node.layout options place = node.layout options other := by
    unfold Node.layout
    rw [declared]
    rfl
  have owes : node.owesTerminator options place = node.owesTerminator options other := by
    unfold Node.owesTerminator
    rw [declared]
    rfl
  rw [render_eq, render_eq, renderNode, renderNode, layout, owes]

/-- What a readable phrase writes does not depend on what stands around it. -/
theorem IsPhrase.write_congr (phrase : node.IsPhrase) (readable : node.Readable)
    (agrees : place.Agrees other) :
    (node.layout options place).write (render options) =
      (node.layout options other).write (render options) := by
  unfold Node.layout
  split
  · rfl
  · next construct known =>
      cases construct with
      | identifier =>
          simp only [Construct.layout, agrees.static, agrees.callee, agrees.memberProperty]
      | call =>
          have checked : place.checkParent = other.checkParent := by
            unfold Position.checkParent
            rw [agrees.parent]
          simp only [Construct.layout, Layout.call]
          refine congrArg (Layout.write _) (Layout.needed_congr fun callee found => ?_)
          have form : callee.form = .text := by
            rw [← Node.field_of_field? found]
            exact readable.callee_form known
          simp only [Layout.continued_of_form form, checked]
      | member =>
          have asked : Rule.propertySubstitute? options node place =
              Rule.propertySubstitute? options node other := by
            unfold Rule.propertySubstitute? Position.checkParent
            rw [agrees.callee, agrees.parent, agrees.target]
          simp only [Construct.layout, Layout.member, Layout.access, asked, agrees.connective]
      | functionExpression =>
          have copied : Construct.ofKind? (Rule.asDeclaration node (node.field "id").name).kind =
              some .functionDeclaration := rfl
          simp only [Construct.layout, Layout.write, Rule.child]
          rw [render_declaration copied]
      | _ =>
          first
          | rfl
          | rcases phrase.construct _ known with expression | same
            · cases expression
            · cases same

/-- Outside a statement the text of a readable phrase does not depend on what stands around
it. -/
theorem IsPhrase.outcome_congr (phrase : node.IsPhrase) (readable : node.Readable)
    (agrees : place.Agrees other)
    (outside : place.inStatement = false) (outsideToo : other.inStatement = false) :
    (render options (.node node) place).outcome = (render options (.node node) other).outcome := by
  rw [render_outcome, render_outcome, phrase.write_congr readable agrees,
    phrase.owesTerminator_eq_false outside, phrase.owesTerminator_eq_false outsideToo]

/-- In a statement a readable phrase has the same text, or the same with a terminator. -/
theorem IsPhrase.outcome_cases (phrase : node.IsPhrase) (readable : node.Readable)
    (agrees : place.Agrees other)
    (outside : other.inStatement = false) {text : String} (quiet : Text.IsQuiet text)
    (rendered : (render options (.node node) other).outcome = .ok text) :
    (render options (.node node) place).outcome = .ok text ∨
      (render options (.node node) place).outcome = .ok (text ++ terminator) := by
  rw [render_outcome, phrase.owesTerminator_eq_false outside] at rendered
  rw [render_outcome, phrase.write_congr readable agrees]
  cases outcome : ((node.layout options other).write (render options)).outcome with
  | ok written =>
      rw [outcome] at rendered
      cases rendered
      change (Except.ok (Fragment.terminated ⟨written, _⟩) : Except Crash String) = _ ∨
        (Except.ok (Fragment.terminated ⟨written, _⟩) : Except Crash String) = _
      cases node.owesTerminator options place with
      | false => exact .inl rfl
      | true => exact .inr (congrArg _ (Text.terminated_statement quiet.isTerminated_eq_false))
  | error fault =>
      rw [outcome] at rendered
      cases fault with
      | missing missing => exact .inl rendered
      | crash crash => cases rendered

/-! ## Plain expressions -/

/-- A readable expression whose texts hold neither semicolons nor brackets. -/
structure IsPlainExpression (node : Node) : Prop where
  expression : node.IsExpression
  readable : node.Readable
  plain : node.IsPlainTree (Text.Avoids Text.delimiters)

/-- The text of a node that stands for its value, whatever stands around it. -/
def HasText (options : Options) (node : Node) (text : String) : Prop :=
  ∀ position : Position, position.IsOperand → position.inStatement = false →
    (render options (.node node) position).outcome = .ok text

theorem HasText.within {text : String} (has : node.HasText options text) {parent : Node}
    (value : parent.kind ≠ "UpdateExpression") (other : parent.kind ≠ "ExpressionStatement") :
    (render options (.node node) (.within parent)).outcome = .ok text :=
  has _ (Position.isOperand_within value) (beq_eq_false_iff_ne.mpr other)

namespace IsPlainExpression

variable (names : options.IsPlain (Text.Avoids Text.delimiters)) (plain : node.IsPlainExpression)
include names plain

/-- Outside a statement a plain expression has a quiet text. -/
theorem exists_quiet (usable : place.IsUsable) (outside : place.inStatement = false) :
    ∃ text, (render options (.node node) place).outcome = .ok text ∧ Text.IsQuiet text := by
  obtain ⟨text, rendered⟩ := (render_isSafe options plain.readable usable).outcome
  let alone : Position := { place with importSource := .noParent }
  have agrees : alone.Agrees place := ⟨rfl, rfl, rfl, rfl, rfl, rfl⟩
  have same : (render options (.node node) alone).outcome =
      (render options (.node node) place).outcome :=
    plain.expression.isPhrase.outcome_congr plain.readable agrees outside outside
  have fine : alone.IsUsable := ⟨usable.parent, ImportSource.noConfusion⟩
  refine ⟨text, rendered, ?_⟩
  exact render_isQuiet names plain.expression.isPhrase plain.readable plain.plain fine outside
    (fun _ => ImportSource.noConfusion) (same.trans rendered)

/-- A plain expression has one text where it stands for its value. -/
theorem exists_text : ∃ text, node.HasText options text ∧ Text.IsQuiet text := by
  have usable : Position.IsUsable {} := ⟨rfl, ImportSource.noConfusion⟩
  obtain ⟨text, rendered, quiet⟩ := plain.exists_quiet names usable rfl
  refine ⟨text, fun position operand outside => ?_, quiet⟩
  exact (plain.expression.isPhrase.outcome_congr plain.readable operand outside rfl).trans rendered

end IsPlainExpression

end Node

/-! ## Statements around an expression -/

/-- What the statements around an expression make of its text: each adds one terminator. -/
structure Node.EndsOnce (options : Options) (node : Node) (text : String) : Prop where
  expressionStatement : ∀ {parent : Node} {position : Position},
    parent.kind = "ExpressionStatement" → parent.field "expression" = .node node →
    (render options (.node parent) position).outcome = .ok (text ++ terminator)
  returnStatement : ∀ {parent : Node} {position : Position},
    parent.kind = "ReturnStatement" → parent.field "argument" = .node node →
    (render options (.node parent) position).outcome = .ok ("return " ++ text ++ terminator)
  declarator : ∀ {parent name : Node} {position : Position},
    parent.kind = "VariableDeclarator" → parent.field "id" = .node name →
    name.kind = "Identifier" → name.name ≠ "" → parent.field "init" = .node node →
    (render options (.node parent) position).outcome =
      .ok ("$" ++ name.name ++ " = " ++ text ++ terminator)
  exported : ∀ {parent : Node} {position : Position},
    parent.kind ∈ ["ExportDeclaration", "ExportNamedDeclaration", "ExportDefaultDeclaration"] →
    parent.field "declaration" = .node node →
    (render options (.node parent) position).outcome = .ok (text ++ terminator)

/-- A plain expression yields a text. -/
theorem Node.IsPlainExpression.yieldsText {node : Node} (plain : node.IsPlainExpression) :
    (Value.node node).form.isText = true :=
  Form.isText_iff.mpr plain.readable.form_eq

theorem Node.IsPlainExpression.endsOnce {options : Options} {node : Node} {text : String}
    (plain : node.IsPlainExpression) (has : node.HasText options text) (quiet : Text.IsQuiet text) :
    node.EndsOnce options text where
  expressionStatement {parent position} kind held := by
    have known : Construct.ofKind? parent.kind = some .expressionStatement := by
      rw [kind]
      rfl
    have operand : (Position.within parent).IsOperand :=
      Position.isOperand_within (by rw [kind]; decide)
    have outside : (render options (.node node) {}).outcome = .ok text :=
      has {} ⟨rfl, rfl, rfl, rfl, rfl, rfl⟩ rfl
    rcases plain.expression.isPhrase.outcome_cases plain.readable operand rfl quiet outside
      with same | ended
    · have writes := Layout.writes_text_iff.mpr ⟨_, Node.field?_node held, plain.yieldsText, same⟩
      rw [render_of_construct_writes known writes]
      exact congrArg _ (Text.terminated_statement quiet.isTerminated_eq_false)
    · have writes := Layout.writes_text_iff.mpr ⟨_, Node.field?_node held, plain.yieldsText, ended⟩
      rw [render_of_construct_writes known writes]
      exact congrArg _ (Text.terminated_append_terminator text _)
  returnStatement {parent position} kind held := by
    have known : Construct.ofKind? parent.kind = some .returnStatement := by
      rw [kind]
      rfl
    have rendered := has.within (by rw [kind]; decide) (by rw [kind]; decide)
    have writes : (Construct.returnStatement.layout options parent position).Writes
        (render options) ("return " ++ text) := by
      simp [Construct.layout, Layout.optionalText, Layout.optional, Node.field?_node held, rendered,
        plain.yieldsText]
    have bare : isTerminated ("return " ++ text) = false :=
      (Text.isTerminated_append_blank "return" text).trans quiet.isTerminated_eq_false
    rw [render_of_construct_writes known writes]
    exact congrArg _ (Text.terminated_statement bare)
  declarator {parent name position} kind target identifier named held := by
    have known : Construct.ofKind? parent.kind = some .variableDeclarator := by
      rw [kind]
      rfl
    have rendered := has.within (by rw [kind]; decide) (by rw [kind]; decide)
    have variable_ := render_variable options identifier named parent
    have writes : (Construct.variableDeclarator.layout options parent position).Writes
        (render options) ("$" ++ name.name ++ " = " ++ text) := by
      simp [Construct.layout, Layout.optionalChild, Layout.optional, Node.field?_node held,
        Node.field?_node target, rendered, variable_, String.append_assoc]
    have bare : isTerminated ("$" ++ name.name ++ " = " ++ text) = false := by
      have split : "$" ++ name.name ++ " = " = "$" ++ name.name ++ " =" ++ " " := by
        simp [String.append_assoc]
      rw [split, Text.isTerminated_append_blank]
      exact quiet.isTerminated_eq_false
    have owes : Construct.variableDeclarator.owesTerminator options parent position = true := by
      simp [Construct.owesTerminator, Node.has, Node.field?_node held]
    rw [render_of_construct_writes known writes, owes]
    exact congrArg _ (Text.terminated_statement bare)
  exported {parent position} kind held := by
    have known : Construct.ofKind? parent.kind = some .exportDeclaration := by
      simp only [List.mem_cons, List.not_mem_nil, or_false] at kind
      rcases kind with kind | kind | kind <;> rw [kind] <;> rfl
    have rendered : (render options (.node node) (.within parent)).outcome = .ok text := by
      refine has.within ?_ ?_ <;> intro other <;> rw [other] at kind <;> revert kind <;> decide
    have writes : (Construct.exportDeclaration.layout options parent position).Writes
        (render options) text := by
      simp [Construct.layout, Layout.exported, Node.field?_node held, rendered, Layout.shaped,
        Value.asNode, plain.yieldsText]
    have owes : Construct.exportDeclaration.owesTerminator options parent position = true := by
      simp [Construct.owesTerminator, held, plain.expression.not_declaration]
    rw [render_of_construct_writes known writes, owes]
    exact congrArg _ (Text.terminated_statement quiet.isTerminated_eq_false)

end PhpRendering
