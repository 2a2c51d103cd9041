import PhpRendering.Proofs.Tracking

/-!
# Nodes that are left out

A node is left out when its own rule finds a required field missing. Then its text is
empty, and after the events of what its rule had rendered before there is one diagnostic.
-/

namespace PhpRendering

/-! ## Tasks that are cut short -/

section Perform

variable {render : Renderer} {tasks : List Task}

/-- Rendering a child never makes a field missing, so only a task that says so does. -/
theorem Task.perform_ne_missing {task : Task} {missing : Missing}
    (outcome : (task.perform render).outcome = .error (.missing missing)) :
    task = .stop (.missing missing) := by
  cases task with
  | visit source value place =>
      rw [Task.perform, Rule.child_outline] at outcome
      generalize (render value place).outline = emission at outcome
      obtain ⟨events, result⟩ := emission
      cases result <;> cases outcome
  | enter function => cases outcome
  | report diagnostic => cases outcome
  | stop fault =>
      cases outcome
      rfl

/-- One emission after another fails where the first or the second fails. -/
theorem Emission.andThen_outcome_error {ε : Type} {first rest : Emission ε Unit} {fault : ε} :
    (first.andThen fun _ => rest).outcome = .error fault ↔
      first.outcome = .error fault ∨ first.outcome = .ok () ∧ rest.outcome = .error fault := by
  obtain ⟨events, result⟩ := first
  cases result <;> simp [andThen]

theorem stop_of_perform_missing {missing : Missing}
    (outcome : (perform render tasks).outcome = .error (.missing missing)) :
    .stop (.missing missing) ∈ tasks := by
  induction tasks with
  | nil => cases outcome
  | cons task rest ih =>
      rcases Emission.andThen_outcome_error.mp outcome with here | ⟨-, later⟩
      · rw [Task.perform_ne_missing here]
        exact List.mem_cons_self ..
      · exact List.mem_cons_of_mem _ (ih later)

/-- Tasks among which one ends the rule have a fault. -/
theorem perform_stopped (render : Renderer) {fault : Fault} (held : .stop fault ∈ tasks) :
    ∃ fault, (perform render tasks).outcome = .error fault := by
  cases outcome : (perform render tasks).outcome with
  | error failure => exact ⟨failure, rfl⟩
  | ok done => exact absurd held (perform_unstopped outcome fault)

/-- What follows tasks with a fault is not done. -/
theorem perform_append_of_error {fault : Fault} (outcome : (perform render tasks).outcome = .error fault)
    (rest : List Task) : perform render (tasks ++ rest) = perform render tasks := by
  rw [perform_append]
  generalize perform render tasks = first at outcome
  obtain ⟨events, result⟩ := first
  cases outcome
  rfl

end Perform

/-! ## Left out by the own rule -/

/-- Whether the rule of a node finds a required field missing. -/
def Node.IsDropped (options : Options) (node : Node) (position : Position) (missing : Missing) :
    Prop :=
  ∃ construct, Construct.ofKind? node.kind = some construct ∧
    (construct.rule (emitter options) options node position).outcome = .error (.missing missing)

section Dropped

variable {options : Options} {node : Node} {position : Position} {missing : Missing}

theorem Emission.outline_outcome_error_iff {ε α : Type} {emission : Emission ε α} {failure : ε} :
    emission.outline.outcome = .error failure ↔ emission.outcome = .error failure := by
  obtain ⟨events, result⟩ := emission
  cases result <;> simp [Emission.outline, Except.map]

/-- A rule misses a field where its layout stops at it. -/
theorem Construct.rule_missing_iff {construct : Construct}
    (known : Construct.ofKind? node.kind = some construct) :
    (construct.rule (emitter options) options node position).outcome = .error (.missing missing) ↔
      (perform (render options) (construct.tasks options node position)).outcome =
        .error (.missing missing) := by
  have shows := construct.rule_shows (emitter_fits options) options position known
  have outline := Layout.closed_outline (render options)
    (construct.owesTerminator options node position) (construct.layout options node position)
  rw [construct.layout_tasks] at outline
  rw [← outline, Emission.outline_outcome_error_iff, ← emitter_shown, ← shows.shown,
    Emission.andThen_outcome_error_iff, Rendering.finished, Emission.andThen_outcome_error_iff]
  constructor
  · exact fun failed => .inl (.inl failed)
  · rintro ((failed | ⟨fragment, -, impossible⟩) | ⟨output, -, impossible⟩)
    · exact failed
    · exact absurd impossible (ofShape_not_missing _)
    · cases impossible

theorem Node.isDropped_iff : node.IsDropped options position missing ↔
    (perform (render options) (node.tasks options position)).outcome =
      .error (.missing missing) := by
  unfold IsDropped
  cases known : Construct.ofKind? node.kind with
  | none =>
      unfold Node.tasks
      rw [known]
      constructor
      · rintro ⟨construct, other, -⟩
        cases other
      · intro outcome
        cases outcome
  | some construct =>
      rw [Node.tasks_eq known, ← Construct.rule_missing_iff known]
      constructor
      · rintro ⟨_, same, outcome⟩
        cases same
        exact outcome
      · exact fun outcome => ⟨construct, rfl, outcome⟩

/-- A node that is left out has no text, and its diagnostic comes last. -/
theorem Node.IsDropped.render (dropped : node.IsDropped options position missing) :
    render options (.node node) position =
      ⟨(perform (PhpRendering.render options) (node.tasks options position)).events ++
        [.reported (Diagnostic.ofMissing missing)], .ok ""⟩ := by
  have outcome := Node.isDropped_iff.mp dropped
  rw [← node.layout_tasks, ← Layout.closed_outline _ (node.owesTerminator options position)] at outcome ⊢
  have failed := Emission.outline_outcome_error_iff.mp outcome
  rw [render_eq, renderNode]
  unfold atBoundary
  simp only [failed]
  rfl

/-- A node whose rule does not get to its end is left out or raises. -/
theorem Node.isDropped_of_stop {fault : Fault} {text : String}
    (held : .stop fault ∈ node.tasks options position)
    (fine : (PhpRendering.render options (.node node) position).outcome = .ok text) :
    ∃ missing, node.IsDropped options position missing := by
  obtain ⟨failure, outcome⟩ := perform_stopped (PhpRendering.render options) held
  cases failure with
  | missing missing => exact ⟨missing, Node.isDropped_iff.mpr outcome⟩
  | crash crash =>
      have outline := congrArg Emission.outcome (render_outline options node position)
      simp only [boundary, outcome, Emission.outline, fine, Except.map] at outline
      cases outline

end Dropped

end PhpRendering
