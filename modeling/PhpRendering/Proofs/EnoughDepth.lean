import PhpRendering.Proofs.Depth

/-!
# Enough depth

Renderings nest in one another as the rules ask for them: each is the rendering of a
value that the node around it visits. A rendering that may nest only so deep fails where
it is asked for one more. No rule fails in that way of itself, so the failure comes up
from where the depth ran out; and it never runs out when there are three renderings for
each level of the tree.
-/

namespace PhpRendering

/-! ## Nested renderings -/

/-- How many renderings are nested in one another at some place of the rendering of a
value. Every rendering but the last is that of a node, and the next one is the rendering
of a value that this node visits, whether a node stands there or not. -/
inductive NestedRenderings (options : Options) : Value → Position → Nat → Prop where
  | alone (value : Value) (position : Position) : NestedRenderings options value position 1
  | inside {node : Node} {position place : Position} {source : Source} {value : Value}
      {count : Nat} (visits : .visit source value place ∈ node.tasks options position)
      (deeper : NestedRenderings options value place count) :
      NestedRenderings options (.node node) position (count + 1)

theorem Value.bound_pos (value : Value) : 0 < value.bound := by
  cases value with
  | node node => exact node.bound_pos
  | scalar scalar => exact Nat.one_pos
  | list items => exact Nat.one_pos
  | record members => exact Nat.one_pos
  | foreign origin => exact Nat.one_pos

/-- The bound of a value falls with each rendering, and one rendering is left at the end. -/
theorem NestedRenderings.le_bound {options : Options} {value : Value} {position : Position}
    {count : Nat} (nested : NestedRenderings options value position count) :
    count ≤ value.bound := by
  induction nested with
  | alone value position => exact value.bound_pos
  | inside visits deeper ih =>
      exact Nat.succ_le_of_lt (Nat.lt_of_le_of_lt ih (Node.bound_lt_of_visit visits))

/-! ## What rules read

A rule fails on a value of a shape that it cannot use, and never for lack of depth. -/

def IsShallow {α : Type} (result : Except Crash α) : Prop :=
  result ≠ .error .tooDeep

namespace IsShallow

theorem ok {α : Type} (found : α) : IsShallow (.ok found) := by
  intro deep
  cases deep

theorem bind {α β : Type} {result : Except Crash α} {next : α → Except Crash β}
    (first : IsShallow result) (rest : ∀ found, IsShallow (next found)) :
    IsShallow (result >>= next) := by
  cases result with
  | ok found => exact rest found
  | error crash =>
      intro deep
      cases deep
      exact first rfl

end IsShallow

theorem Value.asNode_isShallow (value : Value) : IsShallow value.asNode := by
  intro deep
  cases value <;> cases deep

theorem Value.items_isShallow (value : Value) : IsShallow value.items := by
  intro deep
  cases value with
  | scalar scalar => cases scalar <;> cases deep
  | list items => cases deep
  | record members => cases deep
  | foreign origin => cases deep
  | node node => cases deep

theorem Value.itemAt_isShallow (value : Value) (index : Nat) : IsShallow (value.itemAt index) := by
  have listed : ∀ value : Value, IsShallow (do return (← value.items)[index]?.getD .null) :=
    fun value => value.items_isShallow.bind fun items => .ok _
  cases value with
  | record members =>
      simp only [Value.itemAt]
      split
      · intro deep
        cases deep
      · exact .ok _
  | scalar scalar => exact listed (.scalar scalar)
  | list items => exact listed (.list items)
  | foreign origin => exact listed (.foreign origin)
  | node node => exact listed (.node node)

theorem Value.substituteName_isShallow (value : Value) : IsShallow value.substituteName := by
  intro deep
  unfold Value.substituteName at deep
  split at deep <;> cases deep

theorem Node.optionalItems_isShallow (node : Node) (name : String) :
    IsShallow (node.optionalItems name) := by
  unfold Node.optionalItems
  split
  · exact Value.items_isShallow _
  · exact .ok _

theorem Node.accessedName_isShallow (node : Node) : IsShallow node.accessedName := by
  unfold Node.accessedName
  split
  · exact .ok _
  · split
    · split
      · exact Value.substituteName_isShallow _
      · exact .ok _
    · exact .ok _

theorem Position.checkParent_isShallow (position : Position) : IsShallow position.checkParent := by
  unfold Position.checkParent
  intro deep
  split at deep <;> cases deep

theorem Rule.methodSubstitute?_isShallow (options : Options) (callee : Node) :
    IsShallow (Rule.methodSubstitute? options callee) := by
  unfold Rule.methodSubstitute?
  split
  · exact callee.accessedName_isShallow.bind fun name => .ok _
  · exact .ok _

theorem Rule.propertySubstitute?_isShallow (options : Options) (member : Node)
    (position : Position) : IsShallow (Rule.propertySubstitute? options member position) := by
  unfold Rule.propertySubstitute?
  split
  · exact .ok _
  · refine position.checkParent_isShallow.bind fun _ => ?_
    split
    · exact .ok _
    · exact member.accessedName_isShallow.bind fun name => .ok _

theorem Rule.methodFunction_isShallow (value : Value) : IsShallow (Rule.methodFunction value) := by
  unfold Rule.methodFunction
  split
  · intro deep
    cases deep
  · exact Value.asNode_isShallow _

theorem Summand.asFloat_isShallow (summand : Summand) : IsShallow summand.asFloat := by
  unfold Summand.asFloat
  split
  · exact .ok _
  · split
    · exact .ok _
    · intro deep
      cases deep

theorem Output.plus_isShallow (output : Output) (operator : Value) :
    IsShallow (output.plus operator) := by
  unfold Output.plus
  split
  · exact .ok _
  · exact .ok _
  · split
    · unfold Output.sum
      split
      · exact .ok _
      · exact (Summand.asFloat_isShallow _).bind fun _ =>
          (Summand.asFloat_isShallow _).bind fun _ => .ok _
    · intro deep
      cases deep
  · split
    · exact (Summand.asFloat_isShallow _).bind fun _ => .ok _
    · intro deep
      cases deep
  · intro deep
    cases deep

theorem Form.plus_isShallow (form : Form) (operator : Value) : IsShallow (form.plus operator) := by
  have sums (output : Output) : IsShallow ((output.plus operator).map Output.form) := by
    have shallow := output.plus_isShallow operator
    generalize output.plus operator = total at shallow
    intro deep
    cases total with
    | ok sum => cases deep
    | error crash =>
        cases deep
        exact shallow rfl
  cases operator with
  | scalar second =>
      cases form with
      | scalar first => exact sums _
      | notANumber => exact sums _
      | text =>
          cases second <;> first | exact .ok _ | (intro deep; cases deep)
      | _ =>
          intro deep
          cases deep
  | _ =>
      cases form <;> first | exact .ok _ | (intro deep; cases deep)

theorem Rule.keyText_isShallow (key : Node) : IsShallow (Rule.keyText key) := by
  unfold Rule.keyText Rule.keySpelling
  split
  · split
    · exact .ok _
    · split
      · split
        · exact .ok _
        · intro deep
          cases deep
        · intro deep
          cases deep
      · exact .ok _
  · exact .ok _

/-! ## The tasks of a node -/

def Task.IsShallow : Task → Prop
  | .stop fault => fault ≠ .crash .tooDeep
  | _ => True

/-- What a part cannot use is never too deep for it. -/
theorem Part.Crashes.ne_tooDeep {options : Options} {node : Node} {position : Position}
    {part : Part} {crash : Crash} (crashes : part.Crashes options node position crash) :
    crash ≠ .tooDeep := by
  rintro rfl
  cases crashes with
  | single listed found failed => exact Value.asNode_isShallow _ failed
  | several listed plain found failed => exact Value.items_isShallow _ failed
  | optional listed plain failed => exact node.optionalItems_isShallow _ failed
  | callee read held failed => exact Rule.methodSubstitute?_isShallow options _ failed
  | property read failed => exact Rule.propertySubstitute?_isShallow options node position failed
  | parent read failed => exact position.checkParent_isShallow failed
  | default read failed => exact Value.itemAt_isShallow _ _ failed
  | param read held listed failed => exact Value.asNode_isShallow _ failed
  | method read found failed => exact Rule.methodFunction_isShallow _ failed
  | declarators read held kind found failed => exact Value.items_isShallow _ failed
  | mark read found failed => exact Form.plus_isShallow _ _ failed
  | key read held failed => exact Rule.keyText_isShallow _ failed

/-- No part of a node stops for lack of depth. -/
theorem Part.tasks_shallow (options : Options) (node : Node) (position : Position) (part : Part) :
    ∀ task ∈ part.tasks options node position, task.IsShallow := by
  intro task among
  cases part.tasks_do options node position task among with
  | crash crashes =>
      rintro ⟨⟩
      exact crashes.ne_tooDeep rfl
  | _ => first | trivial | exact nofun

theorem Node.tasks_shallow (options : Options) (node : Node) (position : Position) :
    ∀ task ∈ node.tasks options position, task.IsShallow := by
  unfold Node.tasks
  split
  · exact List.forall_mem_singleton.mpr trivial
  · exact List.forall_mem_flatMap.mpr fun part _ => part.tasks_shallow options node position

/-! ## Renderings with enough depth -/

def Emission.StaysAbove {α : Type} (emission : Emission Crash α) : Prop :=
  IsShallow emission.outcome

theorem Emission.staysAbove_outline {α : Type} (emission : Emission Crash α) :
    emission.outline.StaysAbove ↔ emission.StaysAbove := by
  obtain ⟨events, outcome⟩ := emission
  cases outcome with
  | ok result => exact ⟨fun _ => IsShallow.ok result, fun _ => IsShallow.ok ()⟩
  | error crash =>
      constructor
      · intro above deep
        cases deep
        exact above rfl
      · intro above deep
        cases deep
        exact above rfl

theorem Emission.insideRule_outcome_ne {emission : Emission Crash String}
    (above : emission.StaysAbove) : emission.insideRule.outcome ≠ .error (.crash .tooDeep) := by
  obtain ⟨events, outcome⟩ := emission
  cases outcome with
  | ok text =>
      intro deep
      cases deep
  | error crash =>
      intro deep
      cases deep
      exact above rfl

theorem Task.perform_outcome_ne {render : Renderer} {task : Task} (shallow : task.IsShallow)
    (above : ∀ source value place, task = .visit source value place →
      (render value place).StaysAbove) :
    (task.perform render).outcome ≠ .error (.crash .tooDeep) := by
  cases task with
  | visit source value place =>
      have child := Emission.insideRule_outcome_ne (above source value place rfl)
      intro deep
      rw [perform, Rule.child] at deep
      unfold Emission.outline at deep
      cases rendered : (render value place).insideRule.outcome with
      | ok text =>
          rw [rendered] at deep
          cases deep
      | error fault =>
          rw [rendered] at deep child
          cases deep
          exact child rfl
  | enter function =>
      intro deep
      cases deep
  | report diagnostic =>
      intro deep
      cases deep
  | stop fault =>
      intro deep
      cases deep
      exact shallow rfl

/-- Tasks fail for lack of depth only when one of their visits does. -/
theorem perform_outcome_ne {render : Renderer} {tasks : List Task}
    (shallow : ∀ task ∈ tasks, task.IsShallow)
    (above : ∀ source value place, .visit source value place ∈ tasks →
      (render value place).StaysAbove) :
    (perform render tasks).outcome ≠ .error (.crash .tooDeep) := by
  induction tasks with
  | nil =>
      intro deep
      cases deep
  | cons task rest ih =>
      have here := Task.perform_outcome_ne (shallow task (List.mem_cons_self ..))
        fun source value place same => above source value place (same ▸ List.mem_cons_self ..)
      have later := ih (fun other held => shallow other (List.mem_cons_of_mem _ held))
        fun source value place held => above source value place (List.mem_cons_of_mem _ held)
      rw [perform]
      unfold Emission.andThen
      split
      · exact later
      · next failed =>
          intro deep
          cases deep
          exact here failed

/-- A node fails for lack of depth only when something that it visits does. -/
theorem renderNode_staysAbove {render : Renderer} {options : Options} {node : Node}
    {position : Position}
    (above : ∀ source value place, .visit source value place ∈ node.tasks options position →
      (render value place).StaysAbove) :
    (renderNode render options node position).StaysAbove := by
  rw [← Emission.staysAbove_outline, renderNode_outline]
  have fine := perform_outcome_ne (node.tasks_shallow options position) above
  unfold boundary
  split
  · exact IsShallow.ok ()
  · exact IsShallow.ok ()
  · next crash failed =>
      intro deep
      cases deep
      exact fine failed

/-- A value is rendered with the depth of its bound and never runs out of it. -/
theorem renderWithin_staysAbove (options : Options) {depth : Nat} {value : Value}
    (enough : value.bound ≤ depth) (position : Position) :
    (renderWithin options depth value position).StaysAbove := by
  induction depth generalizing value position with
  | zero => exact absurd enough (Nat.not_le_of_lt value.bound_pos)
  | succ depth ih =>
      cases found : value.node? with
      | none =>
          rw [renderWithin_of_node?_eq_none options _ found]
          intro deep
          cases deep
      | some node =>
          cases value <;> cases found
          rw [renderWithin_succ]
          refine renderNode_staysAbove fun source child place visits => ?_
          have lower := Node.bound_lt_of_visit visits
          exact ih (Nat.le_of_lt_succ (Nat.lt_of_lt_of_le lower enough)) place

/-- Renderings never nest deeper than three times the levels of the tree. So a rendering
with at least that much depth never runs out of it, and it is the rendering of the tree,
whatever is left of the depth. -/
theorem three_renderings_per_level (options : Options) (node : Node) (position : Position) :
    (∀ count, NestedRenderings options (.node node) position count → count ≤ 3 * node.levels) ∧
      ∀ depth, 3 * node.levels ≤ depth →
        (renderWithin options depth (.node node) position).outcome ≠ .error .tooDeep ∧
          renderWithin options depth (.node node) position =
            render options (.node node) position := by
  constructor
  · intro count nested
    exact Nat.le_trans nested.le_bound node.bound_le
  · intro depth enough
    have sufficient : (Value.node node).bound ≤ depth := Nat.le_trans node.bound_le enough
    exact ⟨renderWithin_staysAbove options sufficient position,
      renderWithin_eq_render options sufficient position⟩

/-! ## Functions as defaults of functions

In a function whose parameter has a function as its default, whose parameter has one in
turn, a rendering nests three times for each function. -/

/-- Functions that each stand as the default of a parameter of the one around it, a name
as the innermost default. -/
def nestedDefaults : Nat → Origin → Node
  | 0, place => ⟨place, "Identifier", [("name", .text "x")], none⟩
  | depth + 1, place =>
      let param := (place.down (.member "params")).down (.item 0)
      let default := (place.down (.member "defaults")).down (.item 0)
      ⟨place, "FunctionExpression",
        [("params", .list [.node ⟨param, "Identifier", [("name", .text "x")], none⟩]),
          ("defaults", .list [.node (nestedDefaults depth default)])], none⟩

theorem nestedDefaults_levels (depth : Nat) (place : Origin) :
    (nestedDefaults depth place).levels = depth + 1 := by
  induction depth generalizing place with
  | zero => rfl
  | succ depth ih =>
      simp only [nestedDefaults, Node.levels, membersLevels, Value.levels, itemsLevels, ih]
      omega

theorem nestedDefaults_nest (options : Options) (depth : Nat) (place : Origin)
    (position : Position) :
    NestedRenderings options (.node (nestedDefaults depth place)) position (3 * depth + 1) := by
  induction depth generalizing place position with
  | zero => exact .alone _ _
  | succ depth ih =>
      let function := nestedDefaults (depth + 1) place
      let declaration := Rule.asDeclaration function ""
      let param := (place.down (.member "params")).down (.item 0)
      let inner := nestedDefaults depth ((place.down (.member "defaults")).down (.item 0))
      let assignment := Rule.defaultAssignment declaration
        (.node ⟨param, "Identifier", [("name", .text "x")], none⟩) (.node inner)
      have copied : .visit .copy (.node declaration) position ∈ function.tasks options position :=
        List.mem_cons_self ..
      have defaulted : .visit (.defaulted 0) (.node assignment) (.within declaration) ∈
          declaration.tasks options position := List.mem_cons_self ..
      let side := Position.of assignment (assignment.occurrence "right")
      have assigned : .visit (.field "right") (.node inner) side ∈
          assignment.tasks options (.within declaration) :=
        List.mem_cons_of_mem _ (List.mem_cons_self ..)
      exact .inside copied (.inside defaulted (.inside assigned (ih _ side)))

/-- Two functions in one another have three levels and nest seven renderings. A depth of
nine is enough for them and a depth of six is not. -/
theorem twoNestedDefaults_rendered :
    let function := nestedDefaults 2 ⟨0, []⟩
    function.levels = 3 ∧
      NestedRenderings {} (.node function) {} 7 ∧ 7 ≤ 3 * function.levels ∧
      (renderWithin {} 9 (.node function) {}).outcome ≠ .error .tooDeep ∧
      renderWithin {} 9 (.node function) {} = render {} (.node function) {} ∧
      (renderWithin {} 6 (.node function) {}).outcome = .error .tooDeep := by
  intro function
  have levels := nestedDefaults_levels 2 ⟨0, []⟩
  have nested := nestedDefaults_nest {} 2 ⟨0, []⟩ {}
  obtain ⟨few, enough⟩ := three_renderings_per_level {} function {}
  have room : 3 * function.levels ≤ 9 := Nat.le_of_eq (congrArg (3 * ·) levels)
  obtain ⟨above, same⟩ := enough 9 room
  exact ⟨levels, nested, few 7 nested, above, same, rfl⟩

end PhpRendering
