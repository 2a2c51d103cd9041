import PhpRendering.Proofs.Balance
import PhpRendering.Proofs.Composition
import PhpRendering.Proofs.Ends

/-!
# Expressions

An expression is a node of one of the kinds of expressions, or of a kind without a rule
that names no declaration, with expressions in all the places of operands. The body of a
function expression may hold any statements. Outside a statement the text of an
expression is quiet: whatever ends in it, ends inside the brackets of a body.
-/

namespace PhpRendering

def Construct.isExpression : Construct → Bool
  | .identifier | .punctuator | .literal | .selfReference | .binary | .update | .call
  | .construction | .member | .functionExpression | .objectLiteral | .arrayLiteral
  | .property => true
  | _ => false

def operandFields : List String :=
  ["left", "right", "argument", "callee", "arguments", "object", "property", "params",
    "defaults", "properties", "elements", "value"]

/-- The fields in which the operands of a node stand. Of a node without a rule only the
sides of a pattern and the object of a receiver are read. -/
def Node.operands (node : Node) : List String :=
  if (Construct.ofKind? node.kind).isSome then operandFields else ["left", "right", "object"]

inductive Node.IsExpression : Node → Prop where
  | intro {node : Node}
      (construct : ∀ known, Construct.ofKind? node.kind = some known → known.isExpression = true)
      (kind : Rule.isDeclarationKind node.kind = false)
      (operands : ∀ field ∈ node.operands, ∀ child ∈ Node.nodesOf (node.field field),
        child.IsExpression) : node.IsExpression

structure Node.IsPhrase (node : Node) : Prop where
  construct : ∀ known, Construct.ofKind? node.kind = some known →
    known.isExpression = true ∨ known = .functionDeclaration
  operands : ∀ field ∈ node.operands, ∀ child ∈ Node.nodesOf (node.field field),
    child.IsExpression

namespace Node

variable {node : Node} {known : Construct}

theorem IsExpression.isPhrase (expression : node.IsExpression) : node.IsPhrase := by
  cases expression with
  | intro construct kind operands => exact ⟨fun known found => .inl (construct known found), operands⟩

theorem IsExpression.not_declaration (expression : node.IsExpression) :
    Rule.isDeclarationKind node.kind = false := by
  cases expression with
  | intro construct kind operands => exact kind

theorem IsExpression.kind_ne (expression : node.IsExpression) :
    node.kind ≠ "VariableDeclaration" := by
  intro same
  have declares := expression.not_declaration
  rw [same] at declares
  revert declares
  decide

def checkExpression : Nat → Node → Bool
  | 0, _ => false
  | depth + 1, node =>
      ((Construct.ofKind? node.kind).all Construct.isExpression) &&
        !Rule.isDeclarationKind node.kind &&
        node.operands.all fun field =>
          (Node.nodesOf (node.field field)).all fun child => checkExpression depth child

theorem isExpression_of_check (depth : Nat) (checked : node.checkExpression depth = true) :
    node.IsExpression := by
  induction depth generalizing node with
  | zero => cases checked
  | succ depth ih =>
      obtain ⟨kinds, operands⟩ := Bool.and_eq_true_iff.mp checked
      obtain ⟨expression, other⟩ := Bool.and_eq_true_iff.mp kinds
      refine .intro (fun known found => ?_) (by simpa using other) fun field listed child inside => ?_
      · rw [found] at expression
        exact expression
      · exact ih (List.all_eq_true.mp (List.all_eq_true.mp operands field listed) child inside)

/-- A node without nodes below it is an expression when its kind is one of expressions. -/
theorem isExpression_of_leaf (known : (Construct.ofKind? node.kind).all Construct.isExpression)
    (kind : Rule.isDeclarationKind node.kind = false)
    (leaf : ∀ entry ∈ node.fields, Node.nodesOf entry.2 = []) : node.IsExpression := by
  refine .intro (fun construct found => ?_) kind fun field _ child inside => ?_
  · rw [found] at known
    exact known
  · rcases node.field_eq_null_or_mem field with null | held
    · rw [null] at inside
      cases inside
    · rw [leaf _ held] at inside
      cases inside

/-- The places of operands that are read of a node of any kind. -/
theorem mem_operands {field : String} (listed : field ∈ ["left", "right", "object"]) :
    field ∈ node.operands := by
  have among : ∀ field ∈ ["left", "right", "object"], field ∈ operandFields := by decide
  unfold Node.operands
  split
  · exact among field listed
  · exact listed

theorem operands_eq (found : Construct.ofKind? node.kind = some known) :
    node.operands = operandFields := by
  unfold Node.operands
  rw [found]
  rfl

/-- Whatever the rule of a phrase has rendered, apart from a body, is an operand. -/
theorem operand_of_reading {part : Part} {field : String} {shape : Shape} {use : Use}
    (kind : known.isExpression = true ∨ known = .functionDeclaration) (among : part ∈ known.parts)
    (listed : ⟨field, shape, use⟩ ∈ part.readings)
    (rendered : use ∈ [.rendered, .called, .receiver] ∨
      shape ∈ [.nodes, .holedNodes, .nodeOrNodes]) :
    field ∈ operandFields ∨ field = "body" ∧ shape = .node := by
  have table : ∀ part ∈ known.parts, ∀ reading ∈ part.readings,
      (reading.use ∈ [.rendered, .called, .receiver] ∨
        reading.shape ∈ [.nodes, .holedNodes, .nodeOrNodes]) →
      reading.field ∈ operandFields ∨ reading.field = "body" ∧ reading.shape = .node := by
    cases known <;> first | decide | (rcases kind with h | h <;> cases h)
  exact table part among _ listed rendered

/-- Only functions have a body. -/
theorem isFunction_of_body {part : Part} {use : Use}
    (kind : known.isExpression = true ∨ known = .functionDeclaration) (among : part ∈ known.parts)
    (listed : ⟨"body", .node, use⟩ ∈ part.readings) :
    known = .functionDeclaration ∨ known = .functionExpression := by
  have table : ∀ part ∈ known.parts, ∀ reading ∈ part.readings, reading.field = "body" →
      known = .functionDeclaration ∨ known = .functionExpression := by
    cases known <;> first | decide | (rcases kind with h | h <;> cases h)
  exact table part among _ listed rfl

/-- A function expression has only its declaration rendered. -/
theorem source_of_functionExpression {options : Options} {position place : Position}
    {source : Source} {value : Value} (found : Construct.ofKind? node.kind = some .functionExpression)
    (visits : .visit source value place ∈ node.tasks options position) : source = .copy := by
  unfold Node.tasks at visits
  rw [found] at visits
  cases List.mem_singleton.mp visits
  rfl

/-- No phrase has loops or methods as its parts. -/
theorem not_read_of_phrase {part : Part}
    (kind : known.isExpression = true ∨ known = .functionDeclaration) (among : part ∈ known.parts) :
    ⟨"init", .node, .rendered⟩ ∉ part.readings ∧ ⟨"value", .node, .function⟩ ∉ part.readings := by
  have table : ∀ part ∈ known.parts, ⟨"init", .node, .rendered⟩ ∉ part.readings ∧
      ⟨"value", .node, .function⟩ ∉ part.readings := by
    cases known <;> first | decide | (rcases kind with h | h <;> cases h)
  exact table part among

namespace IsPhrase

/-- An expression statement is no phrase. -/
theorem kind_ne (phrase : node.IsPhrase) : (node.kind == "ExpressionStatement") = false := by
  refine beq_eq_false_iff_ne.mpr fun kind => ?_
  have found : Construct.ofKind? node.kind = some .expressionStatement := by
    rw [kind]
    rfl
  rcases phrase.construct _ found with expression | same
  · cases expression
  · cases same

theorem outside {place : Position} (phrase : node.IsPhrase) (below : place.IsBelow node) :
    place.inStatement = false :=
  below.statement.trans phrase.kind_ne

/-- An assignment of expressions. -/
theorem defaultAssignment {function : Node} {target default : Value}
    (left : ∀ child ∈ Node.nodesOf target, child.IsExpression)
    (right : ∀ child ∈ Node.nodesOf default, child.IsExpression) :
    (Rule.defaultAssignment function target default).IsPhrase := by
  refine ⟨?_, fun field _ child inside => ?_⟩
  · rintro known ⟨⟩
    exact .inl rfl
  · rw [Rule.defaultAssignment_field] at inside
    split at inside
    · cases inside
    · split at inside
      · exact left child inside
      · split at inside
        · exact right child inside
        · cases inside

/-- The copy of a function expression has its operands. -/
theorem asDeclaration (phrase : node.IsPhrase) (found : Construct.ofKind? node.kind = some known)
    (name : String) : (Rule.asDeclaration node name).IsPhrase := by
  refine ⟨?_, fun field listed child inside => ?_⟩
  · rintro known ⟨⟩
    exact .inr rfl
  · have copied : Construct.ofKind? (Rule.asDeclaration node name).kind =
        some .functionDeclaration := rfl
    rw [operands_eq copied] at listed
    have other : field ≠ "id" := by
      rintro rfl
      revert listed
      decide
    rw [Rule.asDeclaration_field other] at inside
    refine phrase.operands field ?_ child inside
    rwa [operands_eq found]

theorem asCall (phrase : node.IsPhrase) (found : Construct.ofKind? node.kind = some known) :
    (Rule.asCall node).IsPhrase := by
  refine ⟨?_, fun field listed child inside => phrase.operands field ?_ child inside⟩
  · rintro known ⟨⟩
    exact .inl rfl
  · rwa [operands_eq found]

/-- Phrases have no methods rendered. -/
theorem source_ne_method {options : Options} {position place : Position} {source : Source}
    {value : Value} (phrase : node.IsPhrase)
    (visits : .visit source value place ∈ node.tasks options position) : source ≠ .method := by
  rintro rfl
  obtain ⟨construct, found, part, among, provided⟩ := Node.visit_provided visits
  cases provided with
  | method listed => exact (not_read_of_phrase (phrase.construct construct found) among).2 listed

/-- Whatever a phrase has rendered is the body of a declaration or again a phrase, outside
a statement when the phrase itself is. -/
theorem visit {options : Options} {position place : Position} {source : Source} {child : Node}
    (phrase : node.IsPhrase) (readable : node.Readable)
    (visits : .visit source (.node child) place ∈ node.tasks options position) :
    source = .field "body" ∧ Construct.ofKind? node.kind = some .functionDeclaration ∨
      child.IsPhrase ∧ (position.inStatement = false → place.inStatement = false) := by
  have placed := Node.visit_placed visits
  obtain ⟨construct, found, part, among, provided⟩ := Node.visit_provided visits
  have kind := phrase.construct construct found
  have operand {field : String} {child : Node} (listed : field ∈ operandFields)
      (inside : child ∈ Node.nodesOf (node.field field)) : child.IsExpression := by
    refine phrase.operands field ?_ child inside
    rwa [operands_eq found]
  have operand_item {field : String} {items : List Value} {child : Node}
      (listed : field ∈ operandFields) (held : (node.field field).items = .ok items)
      (inside : .node child ∈ items) : child.IsExpression := by
    refine operand listed ?_
    rw [Value.eq_list_of_items held inside]
    exact List.mem_filterMap.mpr ⟨_, inside, rfl⟩
  cases source with
  | copy =>
      rcases placed with ⟨called, rfl⟩ | ⟨declared, rfl⟩
      · cases called
        exact .inr ⟨phrase.asCall found, fun _ => phrase.outside (.within node)⟩
      · cases declared
        exact .inr ⟨phrase.asDeclaration found _, id⟩
  | field name =>
      cases provided with
      | @field _ shape use _ listed single held direct =>
          have rendered : use ∈ [.rendered, .called, .receiver] := by
            rcases direct with rfl | rfl <;> decide
          rcases operand_of_reading kind among listed (.inl rendered) with read | ⟨rfl, rfl⟩
          · refine .inr ⟨(operand read ?_).isPhrase, fun _ => phrase.outside placed⟩
            rw [Node.field_of_field? held]
            exact List.mem_singleton_self _
          · rcases isFunction_of_body kind among listed with rfl | rfl
            · exact .inl ⟨rfl, found⟩
            · cases source_of_functionExpression found visits
  | item name index =>
      cases provided with
      | @item _ shape use items _ _ listed several held place rendered =>
          have list : shape ∈ [.nodes, .holedNodes, .nodeOrNodes] := by
            rcases several with rfl | ⟨rfl | rfl, -⟩ <;> decide
          rcases operand_of_reading kind among listed (.inr list) with read | ⟨-, rfl⟩
          · exact .inr ⟨(operand_item read held (List.mem_of_getElem? place)).isPhrase,
              fun _ => phrase.outside placed⟩
          · exact absurd list (by decide)
  | receiver =>
      obtain ⟨callee, held, rfl⟩ := placed
      cases provided with
      | @receiver use other value listed held' role found' =>
          cases held.symm.trans held'
          have inner : callee.IsPhrase := by
            refine (operand (by decide : "callee" ∈ operandFields) ?_).isPhrase
            rw [held]
            exact List.mem_singleton_self _
          refine .inr ⟨(inner.operands "object" (mem_operands (by decide)) child ?_).isPhrase,
            fun _ => inner.outside (.within callee)⟩
          rw [Node.field_of_field? found']
          exact List.mem_singleton_self _
  | declarator index =>
      cases provided with
      | declarator listed => exact absurd listed (not_read_of_phrase kind among).1
  | method =>
      generalize same : Value.node child = value at provided
      cases provided with
      | method listed => exact absurd listed (not_read_of_phrase kind among).2
  | pattern index =>
      generalize same : Value.node child = value at provided
      cases provided with
      | @pattern items index param target default listed held place pattern left right =>
          cases same
          have inner : param.IsPhrase :=
            (operand_item (by decide) held (List.mem_of_getElem? place)).isPhrase
          refine .inr ⟨.defaultAssignment ?_ ?_, fun _ => phrase.outside placed⟩
          · rw [← Node.field_of_field? left]
            exact inner.operands "left" (mem_operands (by decide))
          · rw [← Node.field_of_field? right]
            exact inner.operands "right" (mem_operands (by decide))
  | defaulted index =>
      generalize same : Value.node child = value at provided
      cases provided with
      | @defaulted items index param default listed held place other readDefaults given something =>
          cases same
          refine .inr ⟨.defaultAssignment ?_ fun child inside => ?_, fun _ => phrase.outside placed⟩
          · exact List.forall_mem_singleton.mpr
              (operand_item (by decide) held (List.mem_of_getElem? place))
          · have parts := (Node.readable_iff_parts found).mp readable part among
            obtain ⟨inner, rfl, -⟩ := (parts _ readDefaults).default given something
            obtain ⟨defaults, several, there⟩ := Value.getElem?_of_itemAt given something
            cases List.mem_singleton.mp inside
            exact operand_item (by decide) several (List.mem_of_getElem? there)

end IsPhrase

end Node

end PhpRendering
