import PhpRendering.Proofs.Depth
import PhpRendering.Proofs.Passable
import PhpRendering.Proofs.Recording
import PhpRendering.Proofs.Runs

/-!
# Rendering never crashes

A readable program is rendered into a file, whatever is missing or unsupported in it:
a missing field becomes a diagnostic at the boundary of its node, and no other fault
occurs. The functions that are entered on the way are enterable, so a recorder of
scopes follows the rendering to its end.
-/

namespace PhpRendering

/-! ## Functions of readable nodes -/

theorem Shape.Admits.symbolName? {value : Value} (plain : Shape.text.Admits value) :
    ∃ name, value.symbolName? = .ok name := by
  rcases plain with rfl | ⟨letters, rfl⟩
  · exact ⟨none, rfl⟩
  · unfold Value.symbolName?
    split
    · exact ⟨_, rfl⟩
    · exact ⟨none, rfl⟩

/-- Whether a role reads all that the bound name of a node is made of. -/
def Role.Binds (role : Role) (node : Node) : Prop :=
  (node.kind = "Identifier" → role = .construct .identifier) ∧
    (node.kind = "AssignmentPattern" → role = .pattern ∨ role = .innerPattern)

/-- Only identifiers and patterns bind names. -/
theorem Node.boundName_of_kind {node : Node} (identifier : node.kind ≠ "Identifier")
    (pattern : node.kind ≠ "AssignmentPattern") : node.boundName = .null := by
  rw [node.boundName_eq, if_neg identifier, if_neg pattern]

/-- Among the roles of a target is one that reads what its bound name is made of. -/
theorem Use.target_binds {node : Node}
    (bearer : node.kind = "Identifier" ∨ node.kind = "AssignmentPattern") :
    ∃ role ∈ Use.target.roles node, role.Binds node := by
  rcases bearer with kind | kind
  · refine ⟨.construct .identifier, ?_, fun _ => rfl, fun other => ?_⟩
    · simp only [Use.roles, kind]
      decide
    · exact absurd (kind.symm.trans other) (by decide)
  · refine ⟨.innerPattern, ?_, fun other => ?_, fun _ => .inr rfl⟩
    · simp only [Use.roles, kind]
      decide
    · exact absurd (kind.symm.trans other) (by decide)

/-- The name bound by a node, through any nesting of patterns, is a text. -/
theorem ReadableAs.boundName {role : Role} {node : Node} (readable : ReadableAs role node)
    (binds : role.Binds node) : Shape.text.Admits node.boundName := by
  induction readable with
  | @intro role node admits below ih =>
      by_cases identifier : node.kind = "Identifier"
      · rw [node.boundName_eq, if_pos identifier]
        obtain rfl := binds.1 identifier
        exact admits ⟨"name", .text, .unread⟩ (List.mem_singleton_self _)
      by_cases pattern : node.kind = "AssignmentPattern"
      · rw [node.boundName_eq, if_neg identifier, if_pos pattern]
        have listed : ⟨"left", .node, .target⟩ ∈ role.readings := by
          rcases binds.2 pattern with rfl | rfl <;> decide
        split
        · next left held =>
            by_cases bearer : left.kind = "Identifier" ∨ left.kind = "AssignmentPattern"
            · obtain ⟨inner, known, bindsLeft⟩ := Use.target_binds bearer
              refine ih _ listed left ?_ inner known bindsLeft
              simp only [held]
              exact List.mem_singleton_self _
            · rw [not_or] at bearer
              exact .inl (Node.boundName_of_kind bearer.1 bearer.2)
        · exact .inl rfl
      · exact .inl (Node.boundName_of_kind identifier pattern)

/-- The names that the parameters of a readable function bind are texts. -/
theorem Node.Fulfils.boundName {function param : Node} {items : List Value}
    (fulfils : function.Fulfils ⟨"params", .nodes, .parameter⟩)
    (held : (function.field "params").items = .ok items) (inside : .node param ∈ items) :
    Shape.text.Admits param.boundName := by
  obtain ⟨_, ⟨⟩, roles⟩ := fulfils.node_of_item (.inl rfl) held inside
  by_cases pattern : param.kind = "AssignmentPattern"
  · simp only [Use.roles, if_pos pattern, List.mem_singleton, forall_eq] at roles
    refine roles.boundName ⟨fun other => ?_, fun _ => .inl rfl⟩
    exact absurd (pattern.symm.trans other) (by decide)
  · simp only [Use.roles, if_neg pattern] at roles
    by_cases identifier : param.kind = "Identifier"
    · have role : .construct .identifier ∈ Role.ofKind param.kind := by
        rw [identifier]
        decide
      exact (roles _ role).boundName ⟨fun _ => rfl, fun other => absurd other pattern⟩
    · exact .inl (Node.boundName_of_kind identifier pattern)

/-- A readable function declaration can be entered. -/
theorem Node.isEnterable_of_readable {function : Node}
    (readable : ∀ part ∈ Construct.functionDeclaration.parts, part.IsReadable function) :
    function.IsEnterable := by
  have params : function.Fulfils ⟨"params", .nodes, .parameter⟩ :=
    readable .parameters (by decide) _ (by decide)
  have named : function.Fulfils ⟨"id", .anything, .named⟩ :=
    readable .entry (by decide) _ (by decide)
  have body : function.Fulfils ⟨"body", .node, .rendered⟩ :=
    readable (.text "body") (by decide) _ (by decide)
  refine ⟨body.1, ?_, ?_⟩
  · unfold Node.functionName?
    split
    · next id held =>
        have bearer := named.2 id (by simp only [held]; exact List.mem_singleton_self _) .bearer
          (List.mem_singleton_self _)
        have text := (readableAs_iff.mp bearer) _ (List.mem_singleton_self _)
        exact text.1.symbolName?
    · exact ⟨none, rfl⟩
  · obtain ⟨items, listed⟩ := params.optionalItems (.inl rfl)
    refine ⟨items, listed, fun param inside => ?_⟩
    rcases Node.optionalItems_eq_ok listed with rfl | held
    · cases inside
    · obtain ⟨child, rfl, -⟩ := params.node_of_item (.inl rfl) held inside
      exact ⟨child, rfl, (params.boundName held inside).symbolName?⟩

/-! ## Tasks and emissions -/

/-- A task that renders readable nodes, enters functions that can be entered, and is
no crash. -/
def Task.IsSafe : Task → Prop
  | .visit _ value position => (∃ child, value = .node child ∧ child.Readable) ∧ position.IsUsable
  | .enter function => function.IsEnterable
  | .report _ => True
  | .stop fault => ∃ missing, fault = .missing missing

/-- The tasks of a readable node are safe. -/
theorem Node.tasks_safe (options : Options) {node : Node} {position : Position}
    (readable : node.Readable) (usable : position.IsUsable) :
    ∀ task ∈ node.tasks options position, task.IsSafe := by
  unfold Node.tasks
  split
  · exact List.forall_mem_singleton.mpr trivial
  · next construct known =>
      have parts := (Node.readable_iff_parts known).mp readable
      refine List.forall_mem_flatMap.mpr fun part listed task among => ?_
      have provided := part.tasks_provided options node position task among
      have passable := Part.tasks_passable options usable (parts part listed) task among
      cases task with
      | visit source value place => exact ⟨provided.readable (parts part listed), passable⟩
      | enter function =>
          obtain ⟨rfl, rfl⟩ := provided
          rw [Construct.eq_functionDeclaration listed] at parts
          exact Node.isEnterable_of_readable parts
      | report diagnostic => trivial
      | stop fault =>
          cases fault with
          | missing missing => exact ⟨missing, rfl⟩
          | crash crash => exact passable.elim

def Event.IsSafe : Event → Prop
  | .reported _ => True
  | .entered function => function.IsEnterable

structure Emission.IsSafeRule {α : Type} (emission : Emission Fault α) : Prop where
  events : ∀ event ∈ emission.events, event.IsSafe
  outcome : ∀ crash, emission.outcome ≠ .error (.crash crash)

structure Emission.IsSafe {α : Type} (emission : Emission Crash α) : Prop where
  events : ∀ event ∈ emission.events, event.IsSafe
  outcome : ∃ result, emission.outcome = .ok result

theorem Emission.IsSafeRule.andThen {first rest : Emission Fault Unit} (start : first.IsSafeRule)
    (follow : rest.IsSafeRule) : (first.andThen fun _ => rest).IsSafeRule := by
  obtain ⟨events, outcome⟩ := first
  cases outcome with
  | error fault => exact start
  | ok done => exact ⟨List.forall_mem_append.mpr ⟨start.events, follow.events⟩, follow.outcome⟩

theorem Emission.IsSafeRule.of_ok {α : Type} {emission : Emission Fault α} {result : α}
    (safe : ∀ event ∈ emission.events, event.IsSafe) (fine : emission.outcome = .ok result) :
    emission.IsSafeRule := by
  refine ⟨safe, fun crash failed => ?_⟩
  cases fine.symm.trans failed

theorem Emission.IsSafe.insideRule {emission : Emission Crash Unit} (safe : emission.IsSafe) :
    emission.insideRule.IsSafeRule := by
  obtain ⟨events, outcome⟩ := emission
  obtain ⟨safeEvents, result, rfl⟩ := safe
  exact .of_ok safeEvents rfl

/-- A task is done safely when its value is rendered safely. -/
theorem Task.IsSafe.perform {render : Renderer} {task : Task} (safe : task.IsSafe)
    (children : ∀ source child place, task = .visit source (.node child) place →
      (render (.node child) place).outline.IsSafe) : (task.perform render).IsSafeRule := by
  cases task with
  | visit source value place =>
      obtain ⟨⟨child, rfl, _⟩, _⟩ := safe
      have rendered := (children source child place rfl).insideRule
      rwa [← Rule.child_outline] at rendered
  | enter function => exact .of_ok (List.forall_mem_singleton.mpr safe) rfl
  | report diagnostic => exact .of_ok (List.forall_mem_singleton.mpr trivial) rfl
  | stop fault =>
      obtain ⟨missing, rfl⟩ := safe
      refine ⟨List.forall_mem_nil _, fun crash same => ?_⟩
      cases same

theorem perform_isSafeRule {render : Renderer} {tasks : List Task}
    (safe : ∀ task ∈ tasks, task.IsSafe)
    (children : ∀ source child place, .visit source (.node child) place ∈ tasks →
      (render (.node child) place).outline.IsSafe) : (perform render tasks).IsSafeRule := by
  induction tasks with
  | nil => exact .of_ok (List.forall_mem_nil _) rfl
  | cons task rest ih =>
      obtain ⟨first, later⟩ := List.forall_mem_cons.mp safe
      refine (first.perform fun source child place same => ?_).andThen (ih later ?_)
      · subst same
        exact children source child place (List.mem_cons_self ..)
      · exact fun source child place held =>
          children source child place (List.mem_cons_of_mem _ held)

/-- The boundary of a node turns the faults that are left into diagnostics. -/
theorem Emission.IsSafeRule.boundary {emission : Emission Fault Unit} (safe : emission.IsSafeRule) :
    (boundary emission).IsSafe := by
  obtain ⟨events, outcome⟩ := emission
  cases outcome with
  | ok done => exact ⟨safe.events, (), rfl⟩
  | error fault =>
      cases fault with
      | missing missing =>
          refine ⟨List.forall_mem_append.mpr ⟨safe.events, ?_⟩, (), rfl⟩
          exact List.forall_mem_singleton.mpr trivial
      | crash crash => exact absurd rfl (safe.outcome crash)

/-- The outline of a rendering tells whether it is safe. -/
theorem Emission.isSafe_of_outline {α : Type} {emission : Emission Crash α}
    (safe : emission.outline.IsSafe) : emission.IsSafe := by
  obtain ⟨events, outcome⟩ := emission
  obtain ⟨safeEvents, result, fine⟩ := safe
  cases outcome with
  | error crash => cases fine
  | ok text => exact ⟨safeEvents, text, rfl⟩

/-- The rendering of a readable node is safe, by induction on what it visits. -/
theorem render_isSafe (options : Options) {node : Node} {position : Position}
    (readable : node.Readable) (usable : position.IsUsable) :
    (render options (.node node) position).IsSafe := by
  refine Emission.isSafe_of_outline ?_
  induction node, position using Node.visit_induction options with
  | step node position ih =>
      rw [render_outline]
      have safe := Node.tasks_safe options readable usable
      refine (perform_isSafeRule safe fun source child place visits => ?_).boundary
      obtain ⟨⟨_, ⟨⟩, known⟩, fine⟩ := safe _ visits
      exact ih source child place visits known fine

/-! ## Sessions -/

/-- A recorder that can follow safe events. -/
def Recorder.IsReady : Recorder → Prop
  | .scoping record => record.IsSearchable
  | _ => True

theorem Recorder.IsReady.enter {recorder : Recorder} (ready : recorder.IsReady) {function : Node}
    (enterable : function.IsEnterable) :
    (recorder.enter function).2 = .ok () ∧ (recorder.enter function).1.IsReady := by
  cases recorder with
  | ignoring => exact ⟨rfl, trivial⟩
  | listing entered => exact ⟨rfl, trivial⟩
  | scoping record => exact ScopeRecord.IsSearchable.enter ready enterable

/-- Only a recorder of scopes has to be ready; it is when it is empty. -/
theorem Recorder.isReady_of_fresh {recorder : Recorder}
    (fresh : ∀ record, recorder = .scoping record → record = ScopeRecord.initial) :
    recorder.IsReady := by
  cases recorder with
  | ignoring => trivial
  | listing entered => trivial
  | scoping record =>
      obtain rfl := fresh record rfl
      exact ScopeRecord.initial_isSearchable

namespace Session

theorem observe_ok {session : Session} (ready : session.recorder.IsReady) {event : Event}
    (safe : event.IsSafe) :
    (session.observe event).2 = .ok () ∧ (session.observe event).1.recorder.IsReady := by
  cases event with
  | reported diagnostic => exact ⟨rfl, ready⟩
  | entered function => exact ready.enter safe

theorem observeAll_ok {session : Session} (ready : session.recorder.IsReady) {events : List Event}
    (safe : ∀ event ∈ events, event.IsSafe) :
    (session.observeAll events).2 = .ok () ∧ (session.observeAll events).1.recorder.IsReady := by
  induction events generalizing session with
  | nil => exact ⟨rfl, ready⟩
  | cons event rest ih =>
      obtain ⟨first, later⟩ := List.forall_mem_cons.mp safe
      obtain ⟨fine, next⟩ := observe_ok ready first
      unfold observeAll
      split
      · next after observed =>
          rw [observed] at next
          exact ih next later
      · next after crash observed =>
          rw [observed] at fine
          cases fine

/-- A readable program has a file, and the recorder is ready for the next one. -/
theorem generate_ok {session : Session} (ready : session.recorder.IsReady) {root : Node}
    (program : root.kind = "Program") (readable : root.Readable) (found : String) :
    (∃ text, (session.generate (.node root) found).2 = .ok text) ∧
      (session.generate (.node root) found).1.recorder.IsReady := by
  have usable : Position.IsUsable {} := ⟨rfl, ImportSource.noConfusion⟩
  have safe := render_isSafe session.options readable usable
  obtain ⟨fine, next⟩ := observeAll_ok ready safe.events
  obtain ⟨text, rendered⟩ := safe.outcome
  rw [generate_program program]
  unfold Session.render
  rw [run_of_observed fine, rendered]
  exact ⟨⟨_, rfl⟩, next⟩

/-- Readable programs leave the recorder ready. -/
theorem after_isReady {session : Session} (ready : session.recorder.IsReady)
    {trees : List (Value × String)}
    (readable : ∀ tree ∈ trees, ∃ root, tree.1 = .node root ∧ root.kind = "Program" ∧
      root.Readable) : (session.after trees).recorder.IsReady := by
  induction trees generalizing session with
  | nil => exact ready
  | cons tree rest ih =>
      obtain ⟨⟨root, same, program, fine⟩, later⟩ := List.forall_mem_cons.mp readable
      obtain ⟨value, found⟩ := tree
      subst same
      exact ih (generate_ok ready program fine found).2 later

/-- Every readable program has a file, whatever the options, and after any number of
other readable programs. A recorder of scopes has to start empty. -/
theorem readable_program_has_file (options : Options) (log : List Diagnostic) {recorder : Recorder}
    (fresh : ∀ record, recorder = .scoping record → record = ScopeRecord.initial)
    {earlier : List (Value × String)}
    (before : ∀ tree ∈ earlier, ∃ root, tree.1 = .node root ∧ root.kind = "Program" ∧
      root.Readable)
    {root : Node} (program : root.kind = "Program") (readable : root.Readable) (found : String) :
    ∃ text, ((Session.after ⟨options, log, recorder⟩ earlier).generate (.node root) found).2 =
      .ok text := by
  have ready := Recorder.isReady_of_fresh fresh
  exact (generate_ok (after_isReady ready before) program readable found).1

end Session

/-- A program of a hole, a statement of an unknown kind, and a function that has no body
and a parameter without a name. -/
def brokenProgram : Node :=
  let statement (index : Nat) : Origin := ⟨0, [.item index, .member "body"]⟩
  let parameter : Node :=
    ⟨⟨0, [.item 0, .member "params", .item 2, .member "body"]⟩, "Identifier", [], none⟩
  ⟨⟨0, []⟩, "Program",
    [("body", .list
      [.null, .node ⟨statement 1, "WithStatement", [], none⟩,
        .node ⟨statement 2, "FunctionDeclaration", [("params", .list [.node parameter])], none⟩])],
    none⟩

theorem brokenProgram_readable : brokenProgram.Readable := by
  have parameters {origin place : Origin} : Node.Fulfils
      ⟨origin, "FunctionDeclaration",
        [("params", .list [.node ⟨place, "Identifier", [], none⟩])], none⟩
      ⟨"params", .nodes, .parameter⟩ := by
    refine ⟨.inr ⟨_, rfl, List.forall_mem_singleton.mpr ⟨_, rfl⟩⟩, List.forall_mem_singleton.mpr ?_⟩
    refine List.forall_mem_singleton.mpr (readableAs_construct_iff.mpr ?_)
    exact List.forall_mem_singleton.mpr (List.forall_mem_singleton.mpr (.of_null rfl))
  have known : Construct.ofKind? brokenProgram.kind = some .statementList := rfl
  refine (Node.readable_iff_parts known).mpr (List.forall_mem_singleton.mpr ?_)
  refine List.forall_mem_singleton.mpr ⟨.inr ⟨_, rfl, by simp⟩, ?_⟩
  refine List.forall_mem_cons.mpr ⟨List.forall_mem_nil _, List.forall_mem_singleton.mpr ?_⟩
  refine List.forall_mem_singleton.mpr (readableAs_construct_iff.mpr ?_)
  simp only [Construct.parts, Part.IsReadable, Part.readings, List.forall_mem_cons,
    List.not_mem_nil, false_implies, implies_true, and_true, true_and]
  exact ⟨⟨parameters, .of_null rfl⟩, .of_null rfl, parameters, .of_null rfl⟩

theorem brokenProgram_has_file :
    ∃ text, ((Session.after {} [(.node brokenProgram, "Node")]).generate (.node brokenProgram)
      "Node").2 = .ok text := by
  refine Session.readable_program_has_file {} [] ?_ ?_ rfl brokenProgram_readable "Node"
  · rintro record ⟨⟩
    rfl
  · exact List.forall_mem_singleton.mpr ⟨brokenProgram, rfl, rfl, brokenProgram_readable⟩

end PhpRendering
