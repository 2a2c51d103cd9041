import PhpRendering.Proofs.Levels
import PhpRendering.Proofs.Source

/-!
# Nesting of renderings

Rendering is not a recursion on the tree: constructions, function expressions and
methods are rendered once more as copies of as many levels, and a parameter with a
default as an assignment that is not in the tree. The bound of a value counts the
renderings that may nest below it, its own included, also one that finds no node. It
falls from each node to whatever the node has rendered, and the bound of a node is at
most three times its levels.
-/

namespace PhpRendering

/-! ## Bounds -/

/-- How many renderings may nest at a value of some levels. Where there is no node, one
may be tried still. -/
def renderingsAt (levels : Nat) : Nat :=
  max 1 (3 * levels)

theorem renderingsAt_mono {levels more : Nat} (less : levels ≤ more) :
    renderingsAt levels ≤ renderingsAt more := by
  unfold renderingsAt
  omega

def Construct.limit (node : Node) : Construct → Nat
  | .construction => renderingsAt node.innerLevels + 1
  | .functionExpression => 3 * node.functionLevels + 2
  | .functionDeclaration => 3 * node.functionLevels + 1
  | _ => renderingsAt node.innerLevels

/-- How many renderings may nest below a node, its own included. -/
def Node.bound (node : Node) : Nat :=
  match Construct.ofKind? node.kind with
  | none => 1
  | some construct => construct.limit node + 1

def Value.bound : Value → Nat
  | .node found => found.bound
  | _ => 1

theorem Node.bound_le (node : Node) : node.bound ≤ 3 * node.levels := by
  have functionLevels := node.functionLevels_le
  rw [node.levels_eq]
  unfold Node.bound
  split
  · omega
  · unfold Construct.limit renderingsAt
    split <;> omega

theorem Value.bound_le (value : Value) : value.bound ≤ renderingsAt value.levels := by
  cases value with
  | node found => exact Nat.le_trans found.bound_le (Nat.le_max_right _ _)
  | scalar scalar => exact Nat.le_refl _
  | list items => exact Nat.le_max_left _ _
  | record members => exact Nat.le_refl _
  | foreign origin => exact Nat.le_refl _

/-- Whether the nodes of a construct are rendered from the fields of a function alone. -/
def Construct.isFunction : Construct → Bool
  | .functionDeclaration => true
  | .functionExpression => true
  | _ => false

theorem Construct.renderingsAt_inner_le_limit {construct : Construct}
    (other : construct.isFunction = false) (node : Node) :
    renderingsAt node.innerLevels ≤ construct.limit node := by
  cases construct with
  | construction => exact Nat.le_succ _
  | functionDeclaration => cases other
  | functionExpression => cases other
  | _ => exact Nat.le_refl _

theorem Construct.three_functionLevels_lt_limit {construct : Construct}
    (function : construct.isFunction = true) (node : Node) :
    3 * node.functionLevels < construct.limit node := by
  cases construct with
  | functionDeclaration => exact Nat.lt_succ_self _
  | functionExpression => exact Nat.lt_succ_of_lt (Nat.lt_succ_self _)
  | _ => cases function

/-- Whether a part is read from the fields of a function alone, apart from its name. -/
def Part.isOfFunction (part : Part) : Bool :=
  part.readings.all fun reading =>
    reading.shape == .anything || ["params", "defaults", "body"].contains reading.field

theorem Construct.parts_isOfFunction {construct : Construct}
    (function : construct.isFunction = true) :
    ∀ part ∈ construct.parts, part.isOfFunction = true := by
  cases construct with
  | functionDeclaration => decide
  | functionExpression => decide
  | _ => cases function

/-- What a construct reads is low enough to be rendered below it. -/
theorem Construct.renderingsAt_le_limit {construct : Construct} {part : Part} {field : String}
    {shape : Shape} {use : Use} (listed : part ∈ construct.parts)
    (read : ⟨field, shape, use⟩ ∈ part.readings) (shaped : shape ≠ .anything) (node : Node) :
    renderingsAt (node.field field).levels ≤ construct.limit node := by
  cases function : construct.isFunction with
  | false =>
      exact Nat.le_trans (renderingsAt_mono (node.levels_field_le field))
        (Construct.renderingsAt_inner_le_limit function node)
  | true =>
      have known := List.all_eq_true.mp (construct.parts_isOfFunction function part listed) _ read
      have functionField : field ∈ ["params", "defaults", "body"] := by
        simpa [shaped] using known
      have inside : (node.field field).levels ≤ node.functionLevels :=
        Node.levels_functionField_le functionField
      have room := Construct.three_functionLevels_lt_limit function node
      unfold renderingsAt
      omega

/-- Parameters are read in functions only. -/
theorem Construct.isFunction_of_parameters {construct : Construct} {part : Part}
    (listed : part ∈ construct.parts) (read : ⟨"params", .nodes, .parameter⟩ ∈ part.readings) :
    construct.isFunction = true := by
  have table : ∀ part ∈ construct.parts, ⟨"params", .nodes, .parameter⟩ ∈ part.readings →
      construct.isFunction = true := by
    cases construct <;> decide
  exact table part listed read

theorem Node.bound_defaultAssignment (node : Node) (target default : Value) :
    (Rule.defaultAssignment node target default).bound =
      renderingsAt (max target.levels default.levels) + 1 := by
  have inner : (Rule.defaultAssignment node target default).innerLevels =
      max target.levels default.levels := by
    simp [Rule.defaultAssignment, Node.innerLevels, membersLevels, Value.levels]
  have known : Construct.ofKind? (Rule.defaultAssignment node target default).kind = some .binary :=
    rfl
  simp only [Node.bound, known, Construct.limit, inner]

/-- An assignment for a parameter is low enough, although it is not in the tree: the
parameter is a node of its own. -/
theorem Construct.bound_defaultAssignment_le {construct : Construct} {part : Part}
    (listed : part ∈ construct.parts) (read : ⟨"params", .nodes, .parameter⟩ ∈ part.readings)
    (node : Node) {param : Node} {target default : Value}
    (inside : (Value.node param).levels ≤ (node.field "params").levels)
    (low : target.levels ≤ (node.field "params").levels)
    (lowDefault : default.levels ≤
      max (node.field "params").levels (node.field "defaults").levels) :
    (Rule.defaultAssignment node target default).bound ≤ construct.limit node := by
  have function := Construct.three_functionLevels_lt_limit
    (Construct.isFunction_of_parameters listed read) node
  have params : (node.field "params").levels ≤ node.functionLevels :=
    Node.levels_functionField_le (by decide)
  have defaults : (node.field "defaults").levels ≤ node.functionLevels :=
    Node.levels_functionField_le (by decide)
  have something : 0 < (Value.node param).levels := param.levels_pos
  rw [Node.bound_defaultAssignment]
  unfold renderingsAt
  omega

theorem Rule.bound_asDeclaration (function : Node) (name : String) :
    (Rule.asDeclaration function name).bound = 3 * function.functionLevels + 2 := by
  have known : Construct.ofKind? (Rule.asDeclaration function name).kind =
      some .functionDeclaration := rfl
  have fields : (Rule.asDeclaration function name).functionLevels = function.functionLevels := by
    simp only [Node.functionLevels, Rule.asDeclaration_field (by decide : "params" ≠ "id"),
      Rule.asDeclaration_field (by decide : "defaults" ≠ "id"),
      Rule.asDeclaration_field (by decide : "body" ≠ "id")]
  simp only [Node.bound, known, Construct.limit, fields]

theorem Rule.bound_asCall (construction : Node) :
    (Rule.asCall construction).bound = renderingsAt construction.innerLevels + 1 := rfl

/-- Only constructions and function expressions are rendered as copies of themselves. -/
theorem Construct.eq_construction {construct : Construct} (listed : .construction ∈ construct.parts) :
    construct = .construction := by
  revert listed
  cases construct <;> decide

theorem Construct.eq_functionExpression {construct : Construct}
    (listed : .declaration ∈ construct.parts) : construct = .functionExpression := by
  revert listed
  cases construct <;> decide

theorem Construct.eq_functionDeclaration {construct : Construct}
    (listed : .entry ∈ construct.parts) : construct = .functionDeclaration := by
  revert listed
  cases construct <;> decide

/-- What a node provides needs fewer nested renderings than the node. -/
theorem Source.Provides.bound_le {construct : Construct} {node : Node} {part : Part}
    {source : Source} {value : Value} (listed : part ∈ construct.parts)
    (provided : source.Provides node part value) : value.bound ≤ construct.limit node := by
  cases provided with
  | call read =>
      subst read
      rw [Construct.eq_construction listed]
      exact Nat.le_of_eq (Rule.bound_asCall node)
  | declaration read name =>
      subst read
      rw [Construct.eq_functionExpression listed]
      exact Nat.le_of_eq (Rule.bound_asDeclaration node name)
  | field read shape found direct =>
      have low := Construct.renderingsAt_le_limit listed read
        (by rcases shape with h | ⟨h, _⟩ <;> simp [h]) node
      rw [Node.field_of_field? found] at low
      exact Nat.le_trans value.bound_le low
  | item read shape held place rendered =>
      have low := Construct.renderingsAt_le_limit listed read
        (by rcases shape with h | ⟨h | h, _⟩ <;> simp [h]) node
      have inside := Value.levels_le_of_items held (List.mem_of_getElem? place)
      exact Nat.le_trans value.bound_le (Nat.le_trans (renderingsAt_mono inside) low)
  | receiver read held role found =>
      have low := Construct.renderingsAt_le_limit listed read (by decide) node
      rw [held] at low
      have inside := Node.levels_field?_lt found
      exact Nat.le_trans value.bound_le
        (Nat.le_trans (renderingsAt_mono (Nat.le_of_lt inside)) low)
  | declarator read held kind declared place =>
      have low := Construct.renderingsAt_le_limit listed read (by decide) node
      rw [held] at low
      have inside := Nat.le_trans (Value.levels_le_of_items declared (List.mem_of_getElem? place))
        (Nat.le_of_lt (Node.levels_field_lt _ _))
      exact Nat.le_trans value.bound_le (Nat.le_trans (renderingsAt_mono inside) low)
  | @method function read held name =>
      have low := Construct.renderingsAt_le_limit listed read (by decide) node
      rw [held, Value.levels, Node.levels_eq] at low
      have inside := function.functionLevels_le
      have room : 3 * (function.innerLevels + 1) ≤ construct.limit node :=
        Nat.le_trans (Nat.le_max_right _ _) low
      rw [Value.bound, Rule.bound_asDeclaration]
      omega
  | @pattern items index param target default read held place kind left right =>
      have inside : (Value.node param).levels ≤ (node.field "params").levels :=
        Value.levels_le_of_items held (List.mem_of_getElem? place)
      have lowTarget : target.levels < (Value.node param).levels := Node.levels_field?_lt left
      have lowDefault : default.levels < (Value.node param).levels := Node.levels_field?_lt right
      exact Construct.bound_defaultAssignment_le listed read node inside (by omega) (by omega)
  | @defaulted items index param default read held place kind readDefaults given something =>
      have inside : (Value.node param).levels ≤ (node.field "params").levels :=
        Value.levels_le_of_items held (List.mem_of_getElem? place)
      exact Construct.bound_defaultAssignment_le listed read node inside inside
        (Nat.le_trans (Value.levels_itemAt_le given) (Nat.le_max_right _ _))

/-- Whatever a node visits needs fewer nested renderings than the node. -/
theorem Node.bound_lt_of_visit {options : Options} {node : Node} {position place : Position}
    {source : Source} {value : Value}
    (visits : .visit source value place ∈ node.tasks options position) :
    value.bound < node.bound := by
  obtain ⟨construct, known, part, listed, provided⟩ := Node.visit_provided visits
  simp only [Node.bound, known]
  exact Nat.lt_succ_of_le (provided.bound_le listed)

/-! ## Rendering without a bound -/

/-- A child inside a rule has the events and the failure of its rendering. -/
theorem Rule.child_outline (render : Renderer) (value : Value) (position : Position) :
    (Rule.child render value position).outline = (render value position).outline.insideRule := by
  unfold Rule.child Emission.insideRule Emission.outline
  cases (render value position).outcome with
  | error crash => rfl
  | ok text => rfl

/-- What a layout writes depends on how its own values are rendered only. -/
theorem Layout.write_congr {render other : Renderer} {layout : Layout}
    (same : ∀ source value place, .visit source value place ∈ layout.tasks →
      render value place = other value place) :
    layout.write render = layout.write other := by
  induction layout with
  | word text => rfl
  | visit source value place =>
      simp only [write, Rule.child, same source value place (List.mem_singleton_self _)]
  | enter function => rfl
  | report diagnostic => rfl
  | stop fault => rfl
  | next first second before after =>
      have early := before fun source value place held =>
        same source value place (List.mem_append_left _ held)
      have late := after fun source value place held =>
        same source value place (List.mem_append_right _ held)
      simp only [write, early, late]
  | swap first second before after =>
      have early := before fun source value place held =>
        same source value place (List.mem_append_left _ held)
      have late := after fun source value place held =>
        same source value place (List.mem_append_right _ held)
      simp only [write, early, late]
  | unwritten layout ih => simp only [write, ih same]
  | clause layout ih => simp only [write, ih same]
  | line layout ih => simp only [write, ih same]
  | changed change layout ih => simp only [write, ih same]

theorem renderNode_congr {render other : Renderer} {options : Options} {node : Node}
    {position : Position}
    (same : ∀ source value place, .visit source value place ∈ node.tasks options position →
      render value place = other value place) :
    renderNode render options node position = renderNode other options node position := by
  rw [renderNode, renderNode, Layout.closed, Layout.closed,
    Layout.write_congr fun source value place visits =>
      same source value place (node.layout_tasks options position ▸ visits)]

theorem Node.bound_pos (node : Node) : 0 < node.bound := by
  unfold Node.bound
  cases Construct.ofKind? node.kind with
  | none => exact Nat.one_pos
  | some construct => exact Nat.succ_pos _

/-- Only nodes are rendered. -/
theorem renderWithin_of_node?_eq_none (options : Options) (depth : Nat) {value : Value}
    (other : value.node? = none) (position : Position) :
    renderWithin options depth value position = .fail .notANode := by
  cases value with
  | node node => cases other
  | scalar scalar => cases depth <;> rfl
  | list items => cases depth <;> rfl
  | record members => cases depth <;> rfl
  | foreign origin => cases depth <;> rfl

/-- Whatever is no node crashes and enters nothing. -/
theorem render_of_node?_eq_none (options : Options) {value : Value} (other : value.node? = none)
    (position : Position) : render options value position = .fail .notANode :=
  renderWithin_of_node?_eq_none options _ other position

/-- More depth than the bound of a node makes no difference. -/
theorem renderWithin_congr (options : Options) {depth other : Nat} {node : Node}
    (enough : node.bound ≤ depth) (enoughOther : node.bound ≤ other) (position : Position) :
    renderWithin options depth (.node node) position =
      renderWithin options other (.node node) position := by
  induction depth generalizing other node position with
  | zero => exact absurd enough (Nat.not_le_of_lt node.bound_pos)
  | succ depth ih =>
      cases other with
      | zero => exact absurd enoughOther (Nat.not_le_of_lt node.bound_pos)
      | succ other =>
          rw [renderWithin_succ, renderWithin_succ]
          refine renderNode_congr fun source value place visits => ?_
          have lower := Node.bound_lt_of_visit visits
          cases found : value.node? with
          | none => simp only [renderWithin_of_node?_eq_none options _ found]
          | some child =>
              cases value <;> cases found
              exact ih (Nat.le_of_lt_succ (Nat.lt_of_lt_of_le lower enough))
                (Nat.le_of_lt_succ (Nat.lt_of_lt_of_le lower enoughOther)) place

/-- Enough depth renders a value as it is rendered. -/
theorem renderWithin_eq_render (options : Options) {depth : Nat} {value : Value}
    (enough : value.bound ≤ depth) (position : Position) :
    renderWithin options depth value position = render options value position := by
  cases found : value.node? with
  | none => rw [renderWithin_of_node?_eq_none options _ found, render_of_node?_eq_none options found]
  | some node =>
      cases value <;> cases found
      have high : node.bound ≤ 3 * node.height :=
        Nat.le_trans node.bound_le (Nat.mul_le_mul_left 3 node.levels_le_height)
      exact renderWithin_congr options enough high position

/-- A node writes its layout, and its children are rendered in the same way. -/
theorem render_eq (options : Options) (node : Node) (position : Position) :
    render options (.node node) position = renderNode (render options) options node position := by
  have enough : (Value.node node).bound ≤ node.bound + 1 := Nat.le_succ _
  rw [← renderWithin_eq_render options enough position, renderWithin_succ]
  refine renderNode_congr fun source value place visits => ?_
  exact renderWithin_eq_render options (Nat.le_of_lt (Node.bound_lt_of_visit visits)) place

/-- A node does its tasks, and its children do theirs. -/
theorem render_outline (options : Options) (node : Node) (position : Position) :
    (render options (.node node) position).outline =
      boundary (perform (render options) (node.tasks options position)) := by
  rw [render_eq, renderNode_outline]

/-- A property of all nodes follows when each node has it whose visited nodes have it. -/
theorem Node.visit_induction (options : Options) {P : Node → Position → Prop}
    (step : ∀ node position,
      (∀ source child place, .visit source (.node child) place ∈ node.tasks options position →
        P child place) → P node position)
    (node : Node) (position : Position) : P node position := by
  induction nested : node.bound using Nat.strongRecOn generalizing node position with
  | ind bound ih =>
      subst nested
      exact step node position fun source child place visits =>
        ih child.bound (Node.bound_lt_of_visit visits) child place rfl

end PhpRendering
