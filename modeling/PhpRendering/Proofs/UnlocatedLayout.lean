import PhpRendering.Proofs.Depth
import PhpRendering.Proofs.Unlocated

/-!
# Layouts without locations

The layout of a node without locations is the layout of the node, where no diagnostic and
no fault names a line. So a tree without locations is rendered as the tree is: the same
text, the same functions in the same order, and the same diagnostics apart from their
lines.
-/

namespace PhpRendering

/-! ## Diagnostics and layouts -/

def Diagnostic.unlocated (diagnostic : Diagnostic) : Diagnostic :=
  { diagnostic with line := .null }

def Fault.unlocated : Fault → Fault
  | .missing lack => .missing lack.unlocated
  | .crash cause => .crash cause

def Event.unlocated : Event → Event
  | .reported diagnostic => .reported diagnostic.unlocated
  | .entered function => .entered function.unlocated

@[simp]
theorem Diagnostic.unlocated_ofMissing (missing : Missing) :
    (ofMissing missing).unlocated = ofMissing missing.unlocated := rfl

@[simp]
theorem Diagnostic.unlocated_unsupported (node : Node) (feature : String) :
    unsupported node.unlocated feature = (unsupported node feature).unlocated := by
  simp [unsupported, unlocated]

namespace Layout

@[simp]
def unlocated : Layout → Layout
  | .word text => .word text
  | .visit source value position => .visit source value.unlocated position.unlocated
  | .enter function => .enter function.unlocated
  | .report diagnostic => .report diagnostic.unlocated
  | .stop fault => .stop fault.unlocated
  | .next first second => .next first.unlocated second.unlocated
  | .swap first second => .swap first.unlocated second.unlocated
  | .unwritten layout => .unwritten layout.unlocated
  | .clause layout => .clause layout.unlocated
  | .line layout => .line layout.unlocated
  | .changed change layout => .changed change layout.unlocated

/-! ## Ways to lay out -/

@[simp]
theorem unlocated_joined (layouts : List Layout) :
    (joined layouts).unlocated = joined (layouts.map unlocated) := by
  induction layouts with
  | nil => rfl
  | cons first rest ih => simp only [joined, unlocated, ih, List.map_cons]

@[simp]
theorem unlocated_separatedBy (separator : String) (layouts : List Layout) :
    (separatedBy separator layouts).unlocated = separatedBy separator (layouts.map unlocated) := by
  induction layouts with
  | nil => rfl
  | cons first rest ih =>
      cases rest with
      | nil => rfl
      | cons second later =>
          exact congrArg (fun rest => next first.unlocated (next (word separator) rest)) ih

@[simp]
theorem unlocated_firstOr (absent : String) (layouts : List Layout) :
    (firstOr absent layouts).unlocated = firstOr absent (layouts.map unlocated) := by
  cases layouts with
  | nil => rfl
  | cons first rest => simp only [firstOr, unlocated, unlocated_joined, List.map_cons]

section Ways

variable {node : Node} {field : String} {next other : Value → Layout}

theorem unlocated_needed (same : ∀ value, (next value).unlocated = other value.unlocated) :
    (needed node field next).unlocated = needed node.unlocated field other := by
  simp only [needed, Node.unlocated_require]
  cases node.require field with
  | ok value => exact same value
  | error missing => rfl

theorem unlocated_optional {absent : Layout} (plain : absent.unlocated = absent)
    (same : ∀ value, (next value).unlocated = other value.unlocated) :
    (optional node field absent next).unlocated = optional node.unlocated field absent other := by
  simp only [optional, Node.unlocated_field?]
  cases node.field? field with
  | some value => exact same value
  | none => exact plain

theorem unlocated_shaped {α : Type} {lose : α → α} {result unlocatedResult : Except Crash α}
    (results : unlocatedResult = result.map lose) {next other : α → Layout}
    (same : ∀ found, (next found).unlocated = other (lose found)) :
    (shaped result next).unlocated = shaped unlocatedResult other := by
  subst results
  cases result with
  | ok found => exact same found
  | error crash => rfl

theorem unlocated_shaped_same {α : Type} {result : Except Crash α} {next other : α → Layout}
    (same : ∀ found, (next found).unlocated = other found) :
    (shaped result next).unlocated = shaped result other := by
  cases result with
  | ok found => exact same found
  | error crash => rfl

@[simp]
theorem unlocated_wanting (fits : Bool) (layout : Layout) :
    (wanting fits layout).unlocated = wanting fits layout.unlocated := by
  cases fits <;> rfl

variable (node field)

@[simp]
theorem unlocated_present : (present node field).unlocated = present node.unlocated field :=
  unlocated_needed fun _ => rfl

@[simp]
theorem unlocated_child : (child node field).unlocated = child node.unlocated field :=
  unlocated_needed fun value => by simp [unlocated]

@[simp]
theorem unlocated_text : (text node field).unlocated = text node.unlocated field :=
  unlocated_needed fun value => by simp [unlocated]

@[simp]
theorem unlocated_side : (side node field).unlocated = side node.unlocated field :=
  unlocated_needed fun value => by simp [unlocated]

@[simp]
theorem unlocated_optionalChild (absent before after : String) :
    (optionalChild node field absent before after).unlocated =
      optionalChild node.unlocated field absent before after :=
  unlocated_optional rfl fun value => by simp [unlocated]

@[simp]
theorem unlocated_optionalText (absent before : String) :
    (optionalText node field absent before).unlocated =
      optionalText node.unlocated field absent before :=
  unlocated_optional rfl fun value => by simp [unlocated]

theorem unlocated_textSlots (source : Nat → Source) (position : Position) (values : List Value) :
    (textSlots source position values).map unlocated =
      textSlots source position.unlocated (values.map .unlocated) := by
  simp [textSlots, List.zipIdx_map, Function.comp_def, unlocated]

theorem unlocated_slots (source : Nat → Source) (position : Position) (values : List Value) :
    (slots source position values).map unlocated =
      slots source position.unlocated (values.map .unlocated) := by
  simp [slots, List.zipIdx_map, Function.comp_def, unlocated]

theorem unlocated_optionalItems {together other : List Layout → Layout}
    (same : ∀ layouts, (together layouts).unlocated = other (layouts.map unlocated)) :
    (optionalItems node field together).unlocated = optionalItems node.unlocated field other := by
  refine unlocated_shaped (node.unlocated_optionalItems field) fun items => ?_
  rw [same, unlocated_slots, Position.unlocated_within]

theorem unlocated_statements (list : Value) :
    (statements node field list).unlocated = statements node.unlocated field list.unlocated := by
  unfold statements
  rw [unlocated_wanting, Value.unlocated_itemsYieldText]
  refine congrArg (wanting _) (unlocated_shaped list.unlocated_items fun items => ?_)
  rw [unlocated_joined, List.zipIdx_map, List.map_map, List.map_map, List.length_map]
  refine congrArg joined (List.map_congr_left fun entry _ => ?_)
  simp only [Function.comp_apply, Prod.map_fst, Prod.map_snd, Value.unlocated_isNull,
    Position.unlocated_within, id_eq]
  split <;> rfl

end Ways

/-! ## Accesses and calls -/

section Access

variable (options : Options) (node : Node) (position : Position)

@[simp]
theorem unlocated_receiver (source : Source) :
    (receiver source node).unlocated = receiver source node.unlocated :=
  unlocated_needed fun value => by simp [unlocated]

@[simp]
theorem unlocated_callReceiver : (callReceiver node).unlocated = callReceiver node.unlocated :=
  unlocated_needed fun value =>
    unlocated_shaped value.unlocated_asNode fun callee => unlocated_receiver callee .receiver

theorem unlocated_substituted (substitute : Substitute) :
    (substituted node substitute).unlocated = substituted node.unlocated substitute := by
  have operands (together : List Layout → Layout)
      (same : ∀ layouts, (together layouts).unlocated = together (layouts.map unlocated)) :
      (optionalItems node "arguments" together).unlocated =
        optionalItems node.unlocated "arguments" together :=
    unlocated_optionalItems node "arguments" same
  cases substitute with
  | receiverFirst function =>
      simp only [substituted, unlocated_wanting, Node.unlocated_operandsYieldText,
        unlocated_joined, List.map_cons, List.map_nil, unlocated, unlocated_callReceiver]
      rw [operands _ fun layouts => by simp [Function.comp_def, unlocated]]
  | receiverLast function =>
      simp only [substituted, unlocated_wanting, Node.unlocated_operandsYieldText,
        unlocated_joined, List.map_cons, List.map_nil, unlocated, unlocated_callReceiver]
      rw [operands _ fun layouts => by simp [Function.comp_def, unlocated]]
  | propertyFunction function =>
      simp only [substituted, unlocated_joined, List.map_cons, List.map_nil, unlocated,
        unlocated_receiver]
  | charAt =>
      simp only [substituted, unlocated_joined, List.map_cons, List.map_nil, unlocated,
        unlocated_callReceiver]
      rw [operands _ (unlocated_firstOr "0")]
  | constant text => rfl

@[simp]
theorem unlocated_arguments : (arguments node).unlocated = arguments node.unlocated := by
  unfold arguments
  rw [unlocated_wanting, Node.unlocated_field, Value.unlocated_itemsYieldText,
    unlocated_optionalItems node "arguments" (unlocated_separatedBy ", ")]

theorem unlocated_continued (callee : Value) :
    (continued node position callee).unlocated =
      continued node.unlocated position.unlocated callee.unlocated := by
  have place : ({ Position.within node with isCallee := true } : Position).unlocated =
      { Position.within node.unlocated with isCallee := true } := by
    rw [Position.unlocated_within]
    rfl
  have parent {next : Layout} (same : next.unlocated = next) :
      (shaped position.checkParent fun _ => next).unlocated =
        shaped position.unlocated.checkParent fun _ => next :=
    unlocated_shaped_same fun _ => same
  have alone : position.unlocated.inStatement = position.inStatement := rfl
  unfold continued
  rw [Value.unlocated_form]
  cases callee.form with
  | text =>
      simp only [unlocated_joined, List.map_cons, List.map_nil, unlocated, place,
        unlocated_arguments]
      rw [parent rfl]
  | list isEmpty =>
      have refused : (if position.inStatement then stop (.crash .notAName) else empty).unlocated =
          if position.inStatement then stop (.crash .notAName) else empty := by
        split <;> rfl
      simp only [unlocated_joined, List.map_cons, List.map_nil, unlocated, place,
        unlocated_arguments, alone]
      rw [parent refused]
  | _ =>
      simp only [unlocated_joined, List.map_cons, List.map_nil, unlocated, place,
        unlocated_arguments]
      rfl

theorem unlocated_call :
    (call options node position).unlocated =
      call options node.unlocated position.unlocated := by
  refine unlocated_needed fun callee => unlocated_shaped callee.unlocated_asNode fun called => ?_
  rw [Rule.unlocated_methodSubstitute?]
  refine unlocated_shaped_same fun substitute => ?_
  cases substitute with
  | some substitute => exact unlocated_substituted node substitute
  | none => exact unlocated_continued node position callee

theorem unlocated_access (object property : Value) :
    (access node position object property).unlocated =
      access node.unlocated position.unlocated object.unlocated property.unlocated := by
  have place : ({ Position.within node with
      isMemberProperty := true, isStatic := property.isStatic } : Position).unlocated =
      { Position.within node.unlocated with
        isMemberProperty := true, isStatic := property.unlocated.isStatic } := by
    rw [Position.unlocated_within, Value.unlocated_isStatic]
    rfl
  unfold access
  simp only [unlocated, Rule.unlocated_objectPosition, Node.unlocated_flag]
  split
  · simp [unlocated]
  · simp only [unlocated, place, Connective.between, Value.unlocated_isStatic]
    rfl

theorem unlocated_member :
    (member options node position).unlocated =
      member options node.unlocated position.unlocated := by
  refine unlocated_needed fun object => unlocated_needed fun property => ?_
  rw [Rule.unlocated_propertySubstitute?]
  refine unlocated_shaped_same fun substitute => ?_
  cases substitute with
  | some substitute => exact unlocated_substituted node substitute
  | none => exact unlocated_access node position object property

end Access

/-! ## Functions and classes -/

section Function

variable (options : Options) (node : Node) (position : Position)

theorem unlocated_parameter (param : Value) (index : Nat) :
    (parameter node param index).unlocated = parameter node.unlocated param.unlocated index := by
  have defaults : (Rule.defaults node.unlocated).itemAt index =
      ((Rule.defaults node).itemAt index).map .unlocated := by
    rw [Rule.unlocated_defaults, Value.unlocated_itemAt]
  refine unlocated_shaped defaults fun default => ?_
  refine unlocated_shaped param.unlocated_asNode fun pattern => ?_
  simp only [Node.unlocated_kind, Value.unlocated_isNull]
  split
  · refine unlocated_needed fun target => unlocated_needed fun default => ?_
    simp [unlocated]
  · split <;> simp [unlocated]

theorem unlocated_parameters : (parameters node).unlocated = parameters node.unlocated := by
  refine unlocated_shaped (node.unlocated_optionalItems "params") fun params => ?_
  rw [unlocated_separatedBy, List.zipIdx_map, List.map_map, List.map_map]
  refine congrArg (separatedBy ", ") (List.map_congr_left fun entry _ => ?_)
  exact unlocated_parameter node entry.1 entry.2

theorem unlocated_superclass : (superclass node).unlocated = superclass node.unlocated := by
  refine unlocated_optional rfl fun value => ?_
  refine unlocated_shaped value.unlocated_asNode fun parent => ?_
  simp only [Node.unlocated_kind, Node.unlocated_name, Position.unlocated_within]
  split <;> rfl

theorem unlocated_unlessUnsupported {next other : Layout} (same : next.unlocated = other) :
    (unlessUnsupported node next).unlocated = unlessUnsupported node.unlocated other := by
  unfold unlessUnsupported
  rw [Rule.unlocated_unsupportedForm?]
  cases Rule.unsupportedForm? node with
  | some feature => simp [unlocated]
  | none => exact same

theorem unlocated_method :
    (method options node position).unlocated =
      method options node.unlocated position.unlocated := by
  refine unlocated_needed fun key => unlocated_needed fun value => ?_
  refine unlocated_unlessUnsupported node ?_
  refine unlocated_shaped (Rule.unlocated_methodFunction value) fun function => ?_
  have last : position.unlocated.isLast = position.isLast := rfl
  simp [unlocated, last]

theorem unlocated_property : (property node).unlocated = property node.unlocated := by
  refine unlocated_needed fun key => unlocated_needed fun value => ?_
  refine unlocated_unlessUnsupported node ?_
  refine unlocated_shaped key.unlocated_asNode fun key => ?_
  rw [Rule.unlocated_keyText]
  refine unlocated_shaped_same fun name => ?_
  simp [unlocated]

@[simp]
theorem unlocated_augend : (augend node).unlocated = augend node.unlocated := by
  unfold augend
  rw [Node.unlocated_field, Node.unlocated_field, Value.unlocated_form]
  cases (node.field "argument").form with
  | list isEmpty =>
      cases node.field "operator" with
      | list more =>
          rw [Value.unlocated_list]
          simp only [unlocated, unlocated_child, List.isEmpty_map]
      | _ => exact congrArg unwritten (unlocated_child node "argument")
  | text => exact unlocated_child node "argument"
  | _ => exact congrArg unwritten (unlocated_child node "argument")

theorem unlocated_update : (update node).unlocated = update node.unlocated := by
  unfold update
  rw [unlocated, unlocated_augend, Node.unlocated_field, Value.unlocated_form]
  refine congrArg _ (unlocated_needed fun operator => ?_)
  rw [Form.unlocated_plus]
  refine unlocated_shaped_same fun sum => ?_
  have ending : sum.ending operator.unlocated = sum.ending operator := by
    cases sum <;> simp [Form.ending]
  rw [ending]
  rfl

end Function

/-! ## Statements and modules -/

section Statement

variable (node : Node) (position : Position)

theorem unlocated_alternate : (alternate node).unlocated = alternate node.unlocated := by
  refine unlocated_optional rfl fun value => ?_
  refine unlocated_shaped value.unlocated_asNode fun branch => ?_
  simp only [Node.unlocated_kind]
  split <;> simp [unlocated]

theorem unlocated_loopInit (init : Value) :
    (loopInit node init).unlocated = loopInit node.unlocated init.unlocated := by
  refine unlocated_shaped init.unlocated_asNode fun start => ?_
  simp only [Node.unlocated_kind]
  split
  · refine unlocated_needed fun declarations => ?_
    refine unlocated_shaped declarations.unlocated_items fun items => ?_
    have slots := unlocated_textSlots .declarator (.within start) items
    rw [unlocated_separatedBy, Position.unlocated_within, ← slots, List.map_map, List.map_map]
    rfl
  · simp [unlocated]

theorem unlocated_moduleBody (body : Value) :
    (moduleBody node body).unlocated = moduleBody node.unlocated body.unlocated := by
  cases body with
  | list items =>
      rw [Value.unlocated_list]
      exact (unlocated_statements node "body" (.list items)).trans
        (congrArg _ (Value.unlocated_list items))
  | _ => simp [moduleBody, unlocated, Value.unlocated]

theorem unlocated_exported : (exported node).unlocated = exported node.unlocated := by
  unfold exported
  rw [Node.unlocated_field?]
  cases node.field? "declaration" with
  | none => exact unlocated_needed fun list => unlocated_statements node "specifiers" list
  | some declaration =>
      have shape : (shaped declaration.asNode fun _ => empty).unlocated =
          shaped declaration.unlocated.asNode fun _ => empty :=
        unlocated_shaped declaration.unlocated_asNode fun _ => rfl
      simp only [Option.map_some, unlocated_wanting, Value.unlocated_form, unlocated, shape,
        Position.unlocated_within]

theorem unlocated_importedModule :
    (importedModule node position).unlocated =
      importedModule node.unlocated position.unlocated := by
  unfold importedModule Position.unlocated
  cases position.importSource <;> simp [ImportSource.unlocated, unlocated, Fault.unlocated]

theorem unlocated_imported :
    (imported node position).unlocated = imported node.unlocated position.unlocated := by
  have use (binding : Value) : (useStatement node position binding).unlocated =
      useStatement node.unlocated position.unlocated binding.unlocated := by
    simp [useStatement, unlocated, Position.unlocated]
  unfold imported
  rw [unlocated, unlocated_importedModule]
  congr 1
  simp only [optional, Node.unlocated_field?]
  cases node.field? "id" with
  | some id => exact use id
  | none => exact unlocated_needed use

end Statement

end Layout

/-! ## Nodes -/

section Node

variable (options : Options) (node : Node) (position : Position)

open Layout in
theorem Construct.unlocated_layout (construct : Construct) :
    (construct.layout options node position).unlocated =
      construct.layout options node.unlocated position.unlocated := by
  cases construct with
  | statementList => exact unlocated_needed fun list => unlocated_statements node "body" list
  | variableDeclaration =>
      refine unlocated_needed fun list => ?_
      rw [unlocated_wanting, Value.unlocated_itemsYieldText]
      refine congrArg (wanting _) (unlocated_shaped list.unlocated_items fun items => ?_)
      rw [unlocated_joined, unlocated_slots, Position.unlocated_within]
  | variableDeclarator => simp [Construct.layout, unlocated]
  | identifier =>
      have spelled (bare : Bool) : Layout.unlocated
          (if bare then word node.name else word (Naming.variableName node.name)) =
          if bare then word node.name else word (Naming.variableName node.name) := by
        cases bare <;> rfl
      simp only [Construct.layout, Node.unlocated_name, Node.unlocated_missing]
      split
      · rfl
      · exact spelled _
  | punctuator => exact unlocated_needed fun value => by simp [unlocated]
  | literal =>
      simp only [Construct.layout, Node.unlocated_field, Rule.unlocated_literalText]
      exact unlocated_optional rfl fun raw => by simp [unlocated]
  | selfReference => rfl
  | binary => simp [Construct.layout, unlocated]
  | update => exact unlocated_update node
  | expressionStatement => exact unlocated_text node "expression"
  | call => exact unlocated_call options node position
  | construction =>
      have form := (Rule.asCall node).unlocated_form
      rw [Rule.unlocated_asCall] at form
      simp [Construct.layout, unlocated, form]
  | member => exact unlocated_member options node position
  | functionDeclaration =>
      simp [Construct.layout, unlocated, unlocated_parameters, parameterTexts]
  | functionExpression => simp [Construct.layout, unlocated]
  | classDeclaration => simp [Construct.layout, unlocated, unlocated_superclass]
  | methodDefinition => exact unlocated_method options node position
  | objectLiteral =>
      simp only [Construct.layout, unlocated_joined, List.map_cons, List.map_nil, unlocated,
        unlocated_wanting, Node.unlocated_field, Value.unlocated_itemsYieldText]
      rw [unlocated_optionalItems node "properties" (unlocated_separatedBy ", ")]
  | arrayLiteral =>
      simp only [Construct.layout, unlocated_joined, List.map_cons, List.map_nil, unlocated,
        unlocated_wanting, Node.unlocated_field, Value.unlocated_itemsYieldText]
      rw [unlocated_shaped (node.unlocated_optionalItems "elements") fun items => ?_]
      rw [unlocated_separatedBy, List.zipIdx_map, List.map_map, List.map_map]
      refine congrArg (separatedBy ", ") (List.map_congr_left fun entry _ => ?_)
      simp only [Function.comp_apply, Prod.map_fst, Prod.map_snd, Value.unlocated_isNull,
        Position.unlocated_within, id_eq]
      split <;> rfl
  | property => exact unlocated_property node
  | returnStatement => exact unlocated_optionalText node "argument" _ _
  | ifStatement => simp [Construct.layout, unlocated, unlocated_alternate]
  | forStatement =>
      have init : (optional node "init" empty (loopInit node)).unlocated =
          optional node.unlocated "init" empty (loopInit node.unlocated) :=
        unlocated_optional rfl (unlocated_loopInit node)
      simp [Construct.layout, unlocated, init]
  | forInStatement => simp [Construct.layout, unlocated]
  | switchStatement =>
      have clauses : (shaped (node.optionalItems "cases") fun cases =>
          joined ((textSlots (.item "cases") (.within node) cases).map fun clause =>
            .next clause (.word "\n"))).unlocated =
          shaped (node.unlocated.optionalItems "cases") fun cases =>
            joined ((textSlots (.item "cases") (.within node.unlocated) cases).map fun clause =>
              .next clause (.word "\n")) := by
        refine unlocated_shaped (node.unlocated_optionalItems "cases") fun cases => ?_
        rw [unlocated_joined, Position.unlocated_within, ← unlocated_textSlots, List.map_map,
          List.map_map]
        rfl
      simp [Construct.layout, unlocated, clauses]
  | switchCase =>
      have list : (if node.unlocated.flag "consequent" then node.unlocated.field "consequent"
          else .list []) =
          (if node.flag "consequent" then node.field "consequent" else .list []).unlocated := by
        rw [Node.unlocated_flag, Node.unlocated_field]
        split <;> rfl
      simp only [Construct.layout, unlocated, unlocated_optionalChild, unlocated_statements, list]
  | breakStatement => rfl
  | moduleDeclaration =>
      have body : (needed node "body" (moduleBody node)).unlocated =
          needed node.unlocated "body" (moduleBody node.unlocated) :=
        unlocated_needed (unlocated_moduleBody node)
      simp [Construct.layout, unlocated, body]
  | exportDeclaration => exact unlocated_exported node
  | importDeclaration =>
      simp only [Construct.layout, unlocated_wanting, Node.unlocated_field,
        Value.unlocated_itemsYieldText]
      rw [unlocated_optionalItems node "specifiers" unlocated_joined]
  | importSpecifier => exact unlocated_imported node position

theorem Construct.unlocated_owesTerminator (construct : Construct) :
    construct.owesTerminator options node.unlocated position.unlocated =
      construct.owesTerminator options node position := by
  cases construct with
  | variableDeclarator => exact node.unlocated_has "init"
  | call =>
      simp only [Construct.owesTerminator, Node.unlocated_field, Value.unlocated_node?]
      cases (node.field "callee").node? <;> simp [Position.unlocated]
  | exportDeclaration =>
      simp only [Construct.owesTerminator, Node.unlocated_field]
      cases node.field "declaration" <;> simp [Value.unlocated]
  | _ => rfl

theorem Node.unlocated_layout :
    (node.layout options position).unlocated =
      node.unlocated.layout options position.unlocated := by
  unfold Node.layout
  rw [unlocated_kind]
  cases Construct.ofKind? node.kind with
  | none => simp [Layout.unlocated]
  | some construct => exact construct.unlocated_layout options node position

theorem Node.unlocated_owesTerminator :
    node.unlocated.owesTerminator options position.unlocated =
      node.owesTerminator options position := by
  unfold Node.owesTerminator
  rw [unlocated_kind]
  cases Construct.ofKind? node.kind with
  | none => rfl
  | some construct => exact construct.unlocated_owesTerminator options node position

end Node

/-! ## Renderings -/

def Emission.unlocated {ε α : Type} (lose : ε → ε) (emission : Emission ε α) : Emission ε α :=
  ⟨emission.events.map .unlocated, emission.outcome.mapError lose⟩

namespace Emission

variable {ε α β : Type} (lose : ε → ε)

theorem unlocated_ok (events : List Event) (result : α) :
    (⟨events, .ok result⟩ : Emission ε α).unlocated lose = ⟨events.map .unlocated, .ok result⟩ :=
  rfl

theorem unlocated_error (events : List Event) (failure : ε) :
    (⟨events, .error failure⟩ : Emission ε α).unlocated lose =
      ⟨events.map .unlocated, .error (lose failure)⟩ :=
  rfl

theorem unlocated_andThen (first : Emission ε α) (next : α → Emission ε β) :
    (first.andThen next).unlocated lose =
      (first.unlocated lose).andThen fun result => (next result).unlocated lose := by
  obtain ⟨events, outcome⟩ := first
  cases outcome with
  | error failure => rfl
  | ok result =>
      simp only [unlocated_ok, andThen]
      simp only [Emission.unlocated, List.map_append]

theorem unlocated_insideRule (emission : Emission Crash α) :
    emission.insideRule.unlocated .unlocated = (emission.unlocated id).insideRule := by
  obtain ⟨events, outcome⟩ := emission
  cases outcome <;> rfl

theorem unlocated_atBoundary (texts : Emission Fault String) :
    (atBoundary "" .ok texts).unlocated id = atBoundary "" .ok (texts.unlocated .unlocated) := by
  obtain ⟨events, outcome⟩ := texts
  cases outcome with
  | ok text => rfl
  | error fault =>
      cases fault with
      | crash crash => rfl
      | missing missing =>
          simp [unlocated_ok, unlocated_error, atBoundary, Event.unlocated, Fault.unlocated]

end Emission

/-- A layout without locations is written as the layout is, when its slots are filled alike. -/
theorem Layout.unlocated_write {render other : Renderer} {layout : Layout}
    (slots : ∀ source value position, .visit source value position ∈ layout.tasks →
      (render value position).unlocated id = other value.unlocated position.unlocated) :
    (layout.write render).unlocated .unlocated = layout.unlocated.write other := by
  induction layout with
  | word text => rfl
  | visit source value position =>
      simp only [write, unlocated, Rule.child]
      rw [Emission.unlocated_insideRule, slots _ _ _ (List.mem_singleton_self _)]
  | enter function => rfl
  | report diagnostic => rfl
  | stop fault => rfl
  | next first second one other =>
      have before := one fun _ _ _ held => slots _ _ _ (List.mem_append_left _ held)
      have after := other fun _ _ _ held => slots _ _ _ (List.mem_append_right _ held)
      simp only [write, unlocated, Emission.unlocated_andThen, before, after]
      rfl
  | swap first second one other =>
      have after := one fun _ _ _ held => slots _ _ _ (List.mem_append_left _ held)
      have before := other fun _ _ _ held => slots _ _ _ (List.mem_append_right _ held)
      simp only [write, unlocated, Emission.unlocated_andThen, before, after]
      rfl
  | unwritten layout ih =>
      simp only [write, unlocated, Emission.unlocated_andThen, ih slots]
      rfl
  | clause layout ih =>
      simp only [write, unlocated, Emission.unlocated_andThen, ih slots]
      rfl
  | line layout ih =>
      simp only [write, unlocated, Emission.unlocated_andThen, ih slots]
      rfl
  | changed change layout ih =>
      simp only [write, unlocated, Emission.unlocated_andThen, ih slots]
      rfl

theorem render_unlocated_of_other (options : Options) {value : Value} (other : value.node? = none)
    (position : Position) :
    (render options value position).unlocated id =
      render options value.unlocated position.unlocated := by
  have otherToo : value.unlocated.node? = none := by
    rw [Value.unlocated_node?, other]
    rfl
  rw [render_of_node?_eq_none options other, render_of_node?_eq_none options otherToo]
  rfl

/-- A node without locations is rendered as the node is, by induction on what is visited. -/
theorem Node.render_unlocated (options : Options) (node : Node) (position : Position) :
    (render options (.node node) position).unlocated id =
      render options (.node node.unlocated) position.unlocated := by
  induction node, position using Node.visit_induction options with
  | step node position ih =>
      rw [render_eq, render_eq, renderNode, renderNode, Emission.unlocated_atBoundary]
      unfold Layout.closed
      rw [Emission.unlocated_andThen, Node.unlocated_owesTerminator, ← Node.unlocated_layout,
        Layout.unlocated_write fun source value place visits => ?_]
      · rfl
      · cases found : value.node? with
        | none => exact render_unlocated_of_other options found place
        | some child =>
            cases value <;> cases found
            rw [node.layout_tasks] at visits
            exact ih source child place visits

/-- A tree without locations is rendered as the tree is. -/
theorem render_unlocated (options : Options) (value : Value) (position : Position) :
    (render options value position).unlocated id =
      render options value.unlocated position.unlocated := by
  cases found : value.node? with
  | none => exact render_unlocated_of_other options found position
  | some node =>
      cases value <;> cases found
      exact node.render_unlocated options position

end PhpRendering
