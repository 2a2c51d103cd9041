import PhpRendering.Proofs.RuleOutput

/-!
# Rules and their agendas

The tasks of a layout are the agenda of its construct. A layout that is written does its
tasks, so every rule follows the agenda of its construct: it has the same events in the
same order, and it fails where the agenda stops. At the boundary of a node the layout
becomes the text of the node.
-/

namespace PhpRendering

open Emission

namespace Layout

variable {node : Node}

/-! ## The tasks of layouts -/

theorem tasks_joined (layouts : List Layout) : (joined layouts).tasks = layouts.flatMap tasks := by
  induction layouts with
  | nil => rfl
  | cons first rest ih => simp only [joined, tasks, ih, List.flatMap_cons]

theorem tasks_separatedBy (separator : String) (layouts : List Layout) :
    (separatedBy separator layouts).tasks = layouts.flatMap tasks := by
  induction layouts with
  | nil => rfl
  | cons first rest ih =>
      cases rest with
      | nil => simp [separatedBy]
      | cons second rest => simp [separatedBy, tasks, ih]

theorem tasks_firstOr (absent : String) (layouts : List Layout) :
    (firstOr absent layouts).tasks = layouts.flatMap tasks := by
  cases layouts with
  | nil => rfl
  | cons first rest => simp only [firstOr, tasks, tasks_joined, List.flatMap_cons]

theorem flatMap_slots (source : Nat → Source) (position : Position) (values : List Value) :
    (slots source position values).flatMap tasks =
      Task.items source (fun _ => position) false values := by
  unfold slots Task.items
  rw [List.flatMap_map]
  rfl

theorem tasks_needed (node : Node) (field : String) (next : Value → Layout) :
    (needed node field next).tasks = Task.needed node field fun value => (next value).tasks := by
  unfold needed Task.needed
  cases node.require field <;> rfl

theorem tasks_shaped {α : Type} (result : Except Crash α) (next : α → Layout) :
    (shaped result next).tasks = Task.shaped result fun found => (next found).tasks := by
  cases result <;> rfl

theorem tasks_optional (node : Node) (field : String) (absent : Layout) (next : Value → Layout)
    (nothing : absent.tasks = []) :
    (Layout.optional node field absent next).tasks =
      Task.optional node field fun value => (next value).tasks := by
  unfold Layout.optional Task.optional
  cases node.field? field with
  | none => exact nothing
  | some value => rfl

theorem tasks_wanting (fits : Bool) (layout : Layout) :
    (wanting fits layout).tasks = Task.wanting fits layout.tasks := by
  cases fits <;> rfl

theorem flatMap_textSlots (source : Nat → Source) (position : Position) (values : List Value) :
    (textSlots source position values).flatMap tasks = Task.texts source position values := by
  unfold textSlots Task.texts
  simp only [List.flatMap_map, tasks_wanting, tasks]

theorem tasks_text (node : Node) (field : String) :
    (Layout.text node field).tasks = Task.needed node field (Task.text field (.within node)) := by
  unfold Layout.text
  simp only [tasks_needed, tasks_wanting, tasks]
  rfl

theorem tasks_side (node : Node) (field : String) :
    (side node field).tasks =
      Task.needed node field (Task.child field (.of node (node.occurrence field))) :=
  tasks_needed _ _ _

theorem tasks_child (node : Node) (field : String) :
    (child node field).tasks = Task.needed node field (Task.child field (.within node)) :=
  tasks_needed _ _ _

theorem tasks_optionalChild (node : Node) (field absent before after : String) :
    (optionalChild node field absent before after).tasks =
      Task.optional node field (Task.child field (.within node)) :=
  tasks_optional _ _ _ _ rfl

theorem tasks_optionalText (node : Node) (field absent before : String) :
    (optionalText node field absent before).tasks =
      Task.optional node field (Task.text field (.within node)) := by
  unfold optionalText
  rw [tasks_optional _ _ _ _ rfl]
  simp only [tasks, tasks_wanting, List.nil_append]
  rfl

theorem tasks_optionalItems (node : Node) (field : String) {together : List Layout → Layout}
    (all : ∀ layouts, (together layouts).tasks = layouts.flatMap tasks) :
    (optionalItems node field together).tasks = Task.optionalItems node field false := by
  unfold optionalItems Task.optionalItems
  rw [tasks_shaped]
  congr 1
  funext items
  rw [all, flatMap_slots]

theorem tasks_statements (node : Node) (field : String) (list : Value) :
    (statements node field list).tasks = Task.sequence node field list := by
  unfold statements Task.sequence
  rw [tasks_wanting, tasks_shaped]
  congr 2
  funext items
  rw [tasks_joined, List.flatMap_map]
  unfold Task.items
  congr 1
  funext entry
  rw [Bool.true_and]
  split <;> rfl

theorem tasks_receiver (source : Source) (member : Node) :
    (receiver source member).tasks = Task.receiver source member :=
  tasks_needed _ _ _

theorem tasks_callReceiver (node : Node) : (callReceiver node).tasks = Task.callReceiver node := by
  unfold callReceiver Task.callReceiver
  simp only [tasks_needed, tasks_shaped, tasks_receiver]

theorem tasks_unlessUnsupported (next : Layout) :
    (unlessUnsupported node next).tasks = Task.unlessUnsupported node next.tasks := by
  unfold unlessUnsupported Task.unlessUnsupported
  cases Rule.unsupportedForm? node <;> rfl

/-- Words around each layout of a list make no difference. -/
theorem tasks_joined_map (around : Layout → Layout)
    (same : ∀ layout, (around layout).tasks = layout.tasks) (layouts : List Layout) :
    (joined (layouts.map around)).tasks = layouts.flatMap tasks := by
  rw [tasks_joined, List.flatMap_map]
  congr 1
  funext layout
  exact same layout

theorem tasks_substituted (node : Node) (substitute : Substitute) :
    (substituted node substitute).tasks = Task.substituted node substitute := by
  cases substitute with
  | receiverFirst function =>
      have operands := tasks_optionalItems node "arguments"
        (tasks_joined_map (fun operand => .next (.word ", ") operand) fun _ => rfl)
      simp only [substituted, tasks_wanting, joined, tasks, operands, tasks_callReceiver,
        List.nil_append, List.append_nil]
      rfl
  | receiverLast function =>
      have operands := tasks_optionalItems node "arguments"
        (tasks_joined_map (fun operand => .next operand (.word ", ")) fun _ => List.append_nil _)
      simp only [substituted, tasks_wanting, joined, tasks, operands, tasks_callReceiver,
        List.nil_append, List.append_nil]
      rfl
  | propertyFunction function =>
      simp only [substituted, joined, tasks, tasks_receiver, List.nil_append, List.append_nil]
      rfl
  | charAt =>
      have operands := tasks_optionalItems node "arguments" (tasks_firstOr "0")
      simp only [substituted, joined, tasks, operands, tasks_callReceiver, List.nil_append,
        List.append_nil]
      rfl
  | constant text => rfl

theorem tasks_parameters (options : Options) (node : Node) (position : Position) :
    (parameters node).tasks = Part.parameters.tasks options node position := by
  unfold parameters
  simp only [tasks_shaped, tasks_separatedBy, List.flatMap_map]
  refine congrArg (Task.shaped _) (funext fun params => ?_)
  congr 1; funext entry
  unfold parameter Task.parameter
  simp only [tasks_shaped]
  congr 1; funext default
  congr 1; funext param
  split
  · simp only [tasks_needed, tasks]
  · split <;> rfl

theorem tasks_alternate (options : Options) (node : Node) (position : Position) :
    (alternate node).tasks = Part.alternate.tasks options node position := by
  unfold alternate
  rw [tasks_optional _ _ _ _ rfl]
  refine congrArg (Task.optional _ _) (funext fun value => ?_)
  rw [tasks_shaped]
  congr 1; funext branch
  split
  · simp only [joined, tasks, tasks_wanting, List.nil_append, List.append_nil]
    rfl
  · simp only [tasks, tasks_wanting, List.nil_append]
    rfl

theorem tasks_superclass (options : Options) (node : Node) (position : Position) :
    (superclass node).tasks = Part.superclass.tasks options node position := by
  unfold superclass
  rw [tasks_optional _ _ _ _ rfl]
  refine congrArg (Task.optional _ _) (funext fun value => ?_)
  rw [tasks_shaped]
  congr 1; funext parent
  split <;> rfl

theorem tasks_loopStart (options : Options) (node : Node) (position : Position) :
    (Layout.optional node "init" empty (loopInit node)).tasks =
      Part.loopStart.tasks options node position := by
  rw [tasks_optional _ _ _ _ rfl]
  refine congrArg (Task.optional _ _) (funext fun init => ?_)
  unfold loopInit Task.loopInit
  rw [tasks_shaped]
  congr 1; funext start
  split
  · simp only [tasks_needed, tasks_shaped, tasks_separatedBy, List.flatMap_map, tasks,
      flatMap_textSlots]
  · simp only [tasks, tasks_wanting]
    rfl

theorem tasks_arguments (node : Node) :
    (arguments node).tasks =
      Task.wanting (node.field "arguments").itemsYieldText (Task.arguments node) := by
  unfold arguments
  rw [tasks_wanting, tasks_optionalItems _ _ (tasks_separatedBy ", ")]
  rfl

theorem tasks_continued (node : Node) (position : Position) (callee : Value) :
    (continued node position callee).tasks =
      Task.child "callee" { Position.within node with isCallee := true } callee ++
        Task.continued node position callee := by
  unfold continued Task.continued
  cases callee.form <;>
    simp only [joined, tasks, tasks_arguments, tasks_shaped, List.nil_append, List.append_nil,
      Form.isText, Form.isList, if_true, if_false, Bool.false_eq_true]
  · rfl
  · congr 3
    funext _
    split <;> rfl
  all_goals rfl

theorem tasks_call (options : Options) (node : Node) (position : Position) :
    (call options node position).tasks = Part.call.tasks options node position := by
  unfold call
  simp only [Part.tasks, tasks_needed, tasks_shaped]
  congr 1; funext callee
  congr 1; funext called
  congr 1; funext substitute
  cases substitute with
  | some substitute => exact tasks_substituted node substitute
  | none => exact tasks_continued node position callee

theorem tasks_member (options : Options) (node : Node) (position : Position) :
    (member options node position).tasks = Part.access.tasks options node position := by
  unfold member
  simp only [Part.tasks, tasks_needed, tasks_shaped]
  congr 1; funext object
  congr 1; funext property
  congr 1; funext substitute
  cases substitute with
  | some substitute => exact tasks_substituted node substitute
  | none =>
      simp only [access, tasks]
      congr 1
      split <;> rfl

theorem tasks_update (options : Options) (node : Node) (position : Position) :
    (update node).tasks =
      Part.tasks options node position (.child "argument") ++
        Part.tasks options node position (.mark "operator") := by
  have argument : (augend node).tasks = (child node "argument").tasks := by
    unfold augend
    split <;> rfl
  simp only [update, tasks, argument, tasks_child, tasks_needed, tasks_shaped, Part.tasks]

theorem tasks_method (options : Options) (node : Node) (position : Position) :
    (method options node position).tasks = Part.method.tasks options node position := by
  unfold method
  simp only [Part.tasks, tasks_needed, tasks_unlessUnsupported, tasks_shaped, joined, tasks,
    List.nil_append, List.append_nil]

theorem tasks_property (options : Options) (node : Node) (position : Position) :
    (property node).tasks = Part.entryValue.tasks options node position := by
  unfold property
  simp only [Part.tasks, tasks_needed, tasks_unlessUnsupported, tasks_shaped, tasks,
    List.nil_append]
  rfl

theorem tasks_moduleBody (node : Node) (body : Value) :
    (moduleBody node body).tasks = Task.moduleBody node body := by
  cases body with
  | list items => exact tasks_statements node "body" (.list items)
  | _ => rfl

theorem tasks_exported (options : Options) (node : Node) (position : Position) :
    (exported node).tasks = Part.exported.tasks options node position := by
  unfold exported
  simp only [Part.tasks]
  cases node.field? "declaration" with
  | none => simp only [tasks_needed, tasks_statements]
  | some found =>
      simp only [tasks_wanting, tasks, tasks_shaped]
      rfl

theorem tasks_importedModule (options : Options) (node : Node) (position : Position) :
    (importedModule node position).tasks = Part.importedModule.tasks options node position := by
  unfold importedModule
  simp only [Part.tasks]
  cases position.importSource <;> rfl

theorem tasks_importedBinding (options : Options) (node : Node) (position : Position) :
    (Layout.optional node "id" (needed node "imported" (useStatement node position))
      (useStatement node position)).tasks = Part.importedBinding.tasks options node position := by
  unfold Layout.optional
  simp only [Part.tasks]
  cases node.field? "id" with
  | some id => rfl
  | none => exact tasks_needed _ _ _

end Layout

open Layout in
/-- The tasks of the layout of a construct are its agenda. -/
theorem Construct.layout_tasks (options : Options) (node : Node) (position : Position)
    (construct : Construct) :
    (construct.layout options node position).tasks = construct.tasks options node position := by
  cases construct <;> simp only [Construct.tasks, Construct.parts, List.flatMap_cons,
    List.flatMap_nil, List.append_nil, Construct.layout, joined, Layout.tasks, List.nil_append]
  case statementList => simp only [Part.tasks, tasks_needed, tasks_statements]
  case variableDeclaration =>
    simp only [Part.tasks, tasks_needed, tasks_wanting, tasks_shaped, tasks_joined, flatMap_slots]
  case variableDeclarator => simp only [Part.tasks, tasks_child, tasks_optionalChild]
  case identifier =>
    simp only [Part.tasks]
    split
    · rfl
    · split <;> rfl
  case punctuator => simp only [Part.tasks, tasks_needed, Layout.tasks]
  case literal =>
    unfold Layout.optional
    cases node.field? "raw" <;> rfl
  case binary =>
    simp only [present, Part.tasks, tasks_side, tasks_needed, Layout.tasks]
  case update => exact tasks_update _ _ _
  case expressionStatement => exact tasks_text _ _
  case call => exact tasks_call _ _ _
  case construction =>
    simp only [Part.tasks, tasks_wanting, Layout.tasks]
  case member => exact tasks_member _ _ _
  case functionDeclaration =>
    rw [tasks_parameters options node position]
    simp only [present, parameterTexts, Part.tasks, tasks_text, tasks_needed, tasks_wanting,
      Layout.tasks]
  case functionExpression => rfl
  case classDeclaration =>
    rw [tasks_superclass options node position]
    simp only [present, Part.tasks, tasks_text, tasks_needed, Layout.tasks]
  case methodDefinition => exact tasks_method _ _ _
  case objectLiteral =>
    simp only [Part.tasks, tasks_wanting, tasks_optionalItems _ _ (tasks_separatedBy ", ")]
  case arrayLiteral =>
    simp only [Part.tasks, tasks_wanting, tasks_shaped, tasks_separatedBy, List.flatMap_map]
    refine congrArg (Task.wanting _) (congrArg (Task.shaped _) (funext fun items => ?_))
    congr 1; funext entry
    rw [Bool.true_and]
    split <;> rfl
  case property => exact tasks_property _ _ _
  case returnStatement => exact tasks_optionalText _ _ _ _
  case ifStatement =>
    simp only [Part.tasks, tasks_child, tasks_text, tasks_alternate options node position]
  case forStatement =>
    simp only [Part.tasks, tasks_child, tasks_optionalChild,
      tasks_loopStart options node position]
  case forInStatement => simp only [Part.tasks, tasks_child, tasks_text]
  case switchStatement =>
    have clauses (items : List Value) :
        ((textSlots (.item "cases") (.within node) items).map fun clause =>
            Layout.next clause (.word "\n")).flatMap Layout.tasks =
          Task.texts (.item "cases") (.within node) items := by
      rw [List.flatMap_map, ← flatMap_textSlots]
      exact congrArg (List.flatMap · _) (funext fun clause => List.append_nil _)
    simp only [Part.tasks, tasks_child, tasks_shaped, tasks_joined, clauses]
  case switchCase => simp only [Part.tasks, tasks_optionalChild, tasks_statements]
  case moduleDeclaration => simp only [present, Part.tasks, tasks_needed, tasks_moduleBody,
    Layout.tasks]
  case exportDeclaration => exact tasks_exported _ _ _
  case importDeclaration =>
    simp only [Part.tasks, tasks_wanting, tasks_optionalItems _ _ tasks_joined]
  case importSpecifier =>
    rw [← tasks_importedModule, ← tasks_importedBinding]
    rfl

/-! ## Following the agenda -/

/-- A layout that is written does its tasks. -/
theorem Layout.write_follows (render : Renderer) (layout : Layout) :
    (layout.write render).Follows render layout.tasks := by
  induction layout with
  | word text => exact Follows.done text
  | visit source value position => exact Follows.visit source value position
  | enter function => rfl
  | report diagnostic => rfl
  | stop fault => exact Follows.fail fault
  | next first second before after =>
      exact Follows.andThen before fun _ _ => Follows.map after _
  | swap first second before after =>
      exact Follows.andThen before fun _ _ => Follows.map after _
  | unwritten layout ih => exact Follows.map ih _
  | clause layout ih => exact Follows.map ih _
  | line layout ih => exact Follows.map ih _
  | changed change layout ih => exact Follows.map ih _

/-! ## The boundary of a node -/

/-- The events and the failure of a node from those of its rule. A missing field is
reported and no failure. -/
def boundary (emission : Emission Fault Unit) : Emission Crash Unit :=
  match emission.outcome with
  | .ok _ => ⟨emission.events, .ok ()⟩
  | .error (.missing missing) =>
      ⟨emission.events ++ [.reported (Diagnostic.ofMissing missing)], .ok ()⟩
  | .error (.crash crash) => ⟨emission.events, .error crash⟩

theorem atBoundary_outline (texts : Emission Fault String) :
    (atBoundary "" .ok texts).outline = boundary texts.outline := by
  obtain ⟨events, outcome⟩ := texts
  cases outcome with
  | ok text => rfl
  | error fault =>
      cases fault with
      | missing missing => rfl
      | crash crash => rfl

theorem Node.layout_tasks (options : Options) (node : Node) (position : Position) :
    (node.layout options position).tasks = node.tasks options position := by
  unfold Node.layout Node.tasks
  cases Construct.ofKind? node.kind with
  | none => rfl
  | some construct => exact construct.layout_tasks options node position

theorem Layout.closed_outline (render : Renderer) (owesTerminator : Bool) (layout : Layout) :
    (layout.closed render owesTerminator).outline = perform render layout.tasks :=
  Follows.map (layout.write_follows render) _

/-- A rendered node does its tasks. -/
theorem renderNode_outline (render : Renderer) (options : Options) (node : Node)
    (position : Position) :
    (renderNode render options node position).outline =
      boundary (perform render (node.tasks options position)) := by
  rw [renderNode, atBoundary_outline, Layout.closed_outline, Node.layout_tasks]

end PhpRendering
