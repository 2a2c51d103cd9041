import Mathlib.Data.List.TakeWhile
import PhpRendering.Proofs.Requirement
import PhpRendering.Proofs.Safety

/-!
# What is reported

A rendering reports nothing exactly when every node that it visits is renderable. So
the log of a session tells whether the file of a program is complete.
-/

namespace PhpRendering

/-! ## Visited nodes -/

def Task.isStop : Task → Bool
  | .stop _ => true
  | _ => false

/-- The tasks that are done: those before the first one that ends the rule. -/
def reached (tasks : List Task) : List Task :=
  tasks.takeWhile fun task => !task.isStop

/-- Whether the rendering of one node at a position comes to another node, at a
position of its own. -/
inductive Visited (options : Options) : Node → Position → Node → Position → Prop where
  | here (node : Node) (position : Position) : Visited options node position node position
  | inside {node child inner : Node} {position place innerPlace : Position} {source : Source}
      (visits : .visit source (.node child) place ∈ reached (node.tasks options position))
      (rest : Visited options child place inner innerPlace) :
      Visited options node position inner innerPlace

theorem mem_of_mem_reached {tasks : List Task} {task : Task} (held : task ∈ reached tasks) :
    task ∈ tasks :=
  (List.takeWhile_sublist _).subset held

/-- Silent tasks are all done. -/
theorem Silent.reached_eq {tasks : List Task} (silent : Silent tasks) : reached tasks = tasks := by
  refine List.takeWhile_eq_self_iff.mpr fun task held => ?_
  have quiet := silent task held
  cases task with
  | stop fault => exact quiet.elim
  | visit source value place => rfl
  | enter function => rfl
  | report diagnostic => rfl

/-- A readable node is renderable exactly when its tasks are silent. -/
theorem Node.silent_iff {options : Options} (table : options.substitutes = .builtIn) {node : Node}
    {position : Position} (readable : node.Readable) (usable : position.IsUsable) :
    Silent (node.tasks options position) ↔ node.IsRenderable options position := by
  unfold Node.tasks Node.IsRenderable
  cases known : Construct.ofKind? node.kind with
  | none => simp
  | some construct =>
      have parts := (Node.readable_iff_parts known).mp readable
      simp only [Option.some.injEq, exists_eq_left']
      unfold Silent Construct.tasks
      rw [List.forall_mem_flatMap]
      exact forall₂_congr fun part listed => Part.silent_iff table usable (parts part listed)

/-! ## Clean emissions -/

structure Emission.IsClean {ε α : Type} (emission : Emission ε α) : Prop where
  quiet : ∀ diagnostic, .reported diagnostic ∉ emission.events
  outcome : ∃ result, emission.outcome = .ok result

theorem Emission.andThen_isClean_iff {ε : Type} {first rest : Emission ε Unit} :
    (first.andThen fun _ => rest).IsClean ↔ first.IsClean ∧ rest.IsClean := by
  obtain ⟨events, outcome⟩ := first
  cases outcome with
  | error fault =>
      constructor
      · rintro ⟨-, result, failed⟩
        cases failed
      · rintro ⟨⟨-, result, failed⟩, -⟩
        cases failed
  | ok done =>
      constructor
      · rintro ⟨quiet, fine⟩
        exact ⟨⟨fun diagnostic held => quiet diagnostic (List.mem_append_left _ held), done, rfl⟩,
          ⟨fun diagnostic held => quiet diagnostic (List.mem_append_right _ held), fine⟩⟩
      · rintro ⟨⟨quiet, -⟩, ⟨quietRest, fine⟩⟩
        refine ⟨fun diagnostic held => ?_, fine⟩
        exact (List.mem_append.mp held).elim (quiet diagnostic) (quietRest diagnostic)

theorem Emission.insideRule_isClean_iff {emission : Emission Crash Unit} :
    emission.insideRule.IsClean ↔ emission.IsClean := by
  obtain ⟨events, outcome⟩ := emission
  cases outcome with
  | ok done => exact ⟨fun clean => ⟨clean.quiet, done, rfl⟩, fun clean => ⟨clean.quiet, done, rfl⟩⟩
  | error crash =>
      constructor
      · rintro ⟨-, result, failed⟩
        cases failed
      · rintro ⟨-, result, failed⟩
        cases failed

/-- The boundary of a node reports what stopped its rule. -/
theorem boundary_isClean_iff {emission : Emission Fault Unit} :
    (boundary emission).IsClean ↔ emission.IsClean := by
  obtain ⟨events, outcome⟩ := emission
  cases outcome with
  | ok done => exact ⟨fun clean => ⟨clean.quiet, done, rfl⟩, fun clean => ⟨clean.quiet, done, rfl⟩⟩
  | error fault =>
      cases fault with
      | missing missing =>
          constructor
          · rintro ⟨quiet, -⟩
            exact absurd (List.mem_append_right _ (List.mem_singleton_self _)) (quiet _)
          · rintro ⟨-, result, failed⟩
            cases failed
      | crash crash =>
          constructor
          · rintro ⟨-, result, failed⟩
            cases failed
          · rintro ⟨-, result, failed⟩
            cases failed

theorem Task.perform_isClean_iff {render : Renderer} {task : Task} :
    (task.perform render).IsClean ↔ task.IsSilent ∧
      ∀ source value place, task = .visit source value place →
        (render value place).outline.IsClean := by
  cases task with
  | visit source value place =>
      unfold Task.perform
      simp only [Rule.child_outline, Emission.insideRule_isClean_iff]
      constructor
      · intro clean
        refine ⟨trivial, ?_⟩
        rintro _ _ _ ⟨⟩
        exact clean
      · rintro ⟨-, clean⟩
        exact clean source value place rfl
  | enter function =>
      refine iff_of_true ⟨fun diagnostic held => ?_, (), rfl⟩ ⟨trivial, ?_⟩
      · cases List.mem_singleton.mp held
      · rintro _ _ _ ⟨⟩
  | report diagnostic =>
      refine iff_of_false ?_ fun silent => silent.1
      rintro ⟨quiet, -⟩
      exact quiet diagnostic (List.mem_singleton_self _)
  | stop fault =>
      refine iff_of_false ?_ fun silent => silent.1
      rintro ⟨-, result, failed⟩
      cases failed

/-- Tasks are done cleanly when none reports or stops and their values are rendered
cleanly. -/
theorem perform_isClean_iff {render : Renderer} {tasks : List Task} :
    (perform render tasks).IsClean ↔ Silent tasks ∧
      ∀ source value place, .visit source value place ∈ tasks →
        (render value place).outline.IsClean := by
  induction tasks with
  | nil =>
      refine iff_of_true ⟨fun diagnostic held => ?_, (), rfl⟩ ⟨Silent.nil, ?_⟩
      · cases held
      · rintro source value place held
        cases held
  | cons task rest ih =>
      rw [perform, Emission.andThen_isClean_iff, ih, Task.perform_isClean_iff]
      unfold Silent
      rw [List.forall_mem_cons]
      constructor
      · rintro ⟨⟨silent, first⟩, ⟨silentRest, later⟩⟩
        refine ⟨⟨silent, silentRest⟩, fun source value place held => ?_⟩
        rcases List.mem_cons.mp held with same | among
        · exact first source value place same.symm
        · exact later source value place among
      · rintro ⟨⟨silent, silentRest⟩, each⟩
        refine ⟨⟨silent, fun source value place same => ?_⟩,
          ⟨silentRest, fun source value place held => ?_⟩⟩
        · exact each source value place (same ▸ List.mem_cons_self ..)
        · exact each source value place (List.mem_cons_of_mem _ held)

/-- A readable node is rendered cleanly exactly when all that it visits is renderable. -/
theorem render_isClean_iff {options : Options} (table : options.substitutes = .builtIn) {node : Node}
    {position : Position} (readable : node.Readable) (usable : position.IsUsable) :
    (render options (.node node) position).outline.IsClean ↔
      ∀ inner place, Visited options node position inner place → inner.IsRenderable options place := by
  induction node, position using Node.visit_induction options with
  | step node position ih =>
      have safe := Node.tasks_safe options readable usable
      rw [render_outline, boundary_isClean_iff, perform_isClean_iff,
        Node.silent_iff table readable usable]
      constructor
      · rintro ⟨renderable, children⟩ inner place visited
        cases visited with
        | here => exact renderable
        | @inside _ child _ _ childPlace _ source visits rest =>
            have held := mem_of_mem_reached visits
            obtain ⟨⟨_, ⟨⟩, known⟩, fine⟩ := safe _ held
            exact (ih source child childPlace held known fine).mp (children _ _ _ held) inner place rest
      · intro renderable
        have silent := (Node.silent_iff table readable usable).mpr (renderable _ _ (.here _ _))
        refine ⟨renderable _ _ (.here _ _), fun source value place held => ?_⟩
        obtain ⟨⟨child, rfl, known⟩, fine⟩ := safe _ held
        refine (ih source child place held known fine).mpr fun inner innerPlace rest => ?_
        exact renderable inner innerPlace (.inside (silent.reached_eq.symm ▸ held) rest)

/-! ## The log of a session -/

def Event.diagnostic? : Event → Option Diagnostic
  | .reported diagnostic => some diagnostic
  | .entered _ => none

theorem Event.filterMap_diagnostic?_eq_nil_iff {events : List Event} :
    events.filterMap Event.diagnostic? = [] ↔ ∀ diagnostic, .reported diagnostic ∉ events := by
  rw [List.filterMap_eq_nil_iff]
  constructor
  · intro quiet diagnostic held
    cases quiet _ held
  · intro quiet event held
    cases event with
    | reported diagnostic => exact absurd held (quiet diagnostic)
    | entered function => rfl

namespace Session

theorem observe_log (session : Session) (event : Event) :
    (session.observe event).1.log = session.log ++ [event].filterMap Event.diagnostic? := by
  cases event with
  | reported diagnostic => rfl
  | entered function => exact (List.append_nil _).symm

/-- A session that observes all events has all their diagnostics in its log. -/
theorem observeAll_log {session : Session} {events : List Event}
    (fine : (session.observeAll events).2 = .ok ()) :
    (session.observeAll events).1.log = session.log ++ events.filterMap Event.diagnostic? := by
  induction events generalizing session with
  | nil => exact (List.append_nil _).symm
  | cons event rest ih =>
      have first := observe_log session event
      unfold observeAll at fine ⊢
      split at fine
      · next after observed =>
          rw [observed] at first
          rw [ih fine, first, List.append_assoc, ← List.filterMap_append]
          rfl
      · next after crash observed => cases fine

/-- A session gains no diagnostic from a readable program exactly when every node that
is visited has all that its rule requires. -/
theorem generate_log_iff {session : Session} (ready : session.recorder.IsReady)
    (table : session.options.substitutes = .builtIn) {root : Node} (program : root.kind = "Program")
    (readable : root.Readable) (found : String) :
    (session.generate (.node root) found).1.log = session.log ↔
      ∀ node position, Visited session.options root {} node position →
        node.IsRenderable session.options position := by
  have usable : Position.IsUsable {} := ⟨rfl, ImportSource.noConfusion⟩
  have safe := render_isSafe session.options readable usable
  obtain ⟨fine, -⟩ := observeAll_ok ready safe.events
  rw [generate_program program, ← render_isClean_iff table readable usable]
  unfold Session.render
  rw [run_of_observed fine, observeAll_log fine, List.append_right_eq_self,
    Event.filterMap_diagnostic?_eq_nil_iff]
  obtain ⟨text, rendered⟩ := safe.outcome
  have succeeded : (PhpRendering.render session.options (.node root) {}).outline.outcome = .ok () :=
    congrArg (Except.map fun _ => ()) rendered
  exact ⟨fun quiet => ⟨quiet, (), succeeded⟩, fun clean => clean.quiet⟩

/-- The log of a session is complete and sound, also after other readable programs: it
stays as it is exactly when every node that is visited has all that its rule requires.
A recorder of scopes has to start empty. -/
theorem log_unchanged_iff {options : Options} (table : options.substitutes = .builtIn)
    (log : List Diagnostic) {recorder : Recorder}
    (fresh : ∀ record, recorder = .scoping record → record = ScopeRecord.initial)
    {earlier : List (Value × String)}
    (before : ∀ tree ∈ earlier, ∃ root, tree.1 = .node root ∧ root.kind = "Program" ∧
      root.Readable)
    {root : Node} (program : root.kind = "Program") (readable : root.Readable) (found : String) :
    ((Session.after ⟨options, log, recorder⟩ earlier).generate (.node root) found).1.log =
        (Session.after ⟨options, log, recorder⟩ earlier).log ↔
      ∀ node position, Visited options root {} node position → node.IsRenderable options position := by
  have ready : (Session.after ⟨options, log, recorder⟩ earlier).recorder.IsReady :=
    after_isReady (Recorder.isReady_of_fresh fresh) before
  have unchanged := generate_log_iff ready
  rw [after_options] at unchanged
  exact unchanged table program readable found

end Session

/-- The statement of an unknown kind is visited, so the broken program is reported. -/
theorem brokenProgram_is_reported :
    (Session.generate {} (.node brokenProgram) "Node").1.log ≠ [] := by
  intro unchanged
  have fresh : ∀ record, Recorder.scoping ScopeRecord.initial = .scoping record →
      record = ScopeRecord.initial := by
    rintro record ⟨⟩
    rfl
  have renderable := (Session.log_unchanged_iff rfl [] fresh (List.forall_mem_nil _) rfl
    brokenProgram_readable "Node").mp unchanged
  have visited : Visited {} brokenProgram {}
      ⟨⟨0, [.item 1, .member "body"]⟩, "WithStatement", [], none⟩
      { Position.within brokenProgram with isLast := false } :=
    .inside (List.mem_cons_self ..) (.here _ _)
  obtain ⟨construct, known, -⟩ := renderable _ _ visited
  cases known

end PhpRendering
