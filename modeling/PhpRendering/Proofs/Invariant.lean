import PhpRendering.Proofs.Nesting

/-!
# Invariants of renderings

A rule does its tasks one after another, and the boundary of its node turns a missing field
into a report. Functions are entered in one place: in a declaration, after its parameters
were rendered and its body was found. An invariant is a property of emissions that nothing
else can break, so it holds of every rendering as soon as it holds of the entries.
-/

namespace PhpRendering

/-! ## Declarations -/

/-- Only declarations of functions enter a function. -/
theorem Node.kind_of_enter {options : Options} {node function : Node} {position : Position}
    (enters : .enter function ∈ node.tasks options position) :
    node.kind = "FunctionDeclaration" := by
  rcases Node.part_of_task enters with report | ⟨construct, known, part, listed, among⟩
  · cases report
  · obtain ⟨rfl, -⟩ := part.tasks_provided options node position _ among
    rw [Construct.eq_functionDeclaration listed] at known
    exact Construct.kind_eq known (by decide)

/-- What a declaration of a function does: its parameters, then its body, which has to be
there before the function is entered. Only then the outputs of the parameters are joined. -/
theorem Node.tasks_of_declaration {options : Options} {node : Node} {position : Position}
    (kind : node.kind = "FunctionDeclaration") :
    node.tasks options position = Part.parameters.tasks options node position ++
      ((Part.present "body").tasks options node position ++
        .enter node :: (Part.parameterTexts.tasks options node position ++
          (Part.text "body").tasks options node position)) := by
  have known : Construct.ofKind? node.kind = some .functionDeclaration := by
    rw [kind]
    rfl
  rw [Node.tasks_eq known]
  simp [Construct.tasks, Construct.parts, Part.tasks]

/-! ## Invariants -/

/-- A property of emissions that holds where nothing is entered, and that passes from two
computations to one after the other and over the boundary of a node. -/
structure Emission.IsInvariant (I : Emission Fault Unit → Prop) : Prop where
  silent : ∀ emission, emission.functions = [] → I emission
  andThen : ∀ first (next : Unit → Emission Fault Unit), I first →
    (first.outcome = .ok () → I (next ())) → I (first.andThen next)
  boundary : ∀ emission, I emission → I (PhpRendering.boundary emission).insideRule

namespace Emission.IsInvariant

variable {I : Emission Fault Unit → Prop} (invariant : IsInvariant I)

include invariant

/-- Tasks that enter no function keep an invariant when the values that they render do. -/
theorem perform {render : Renderer} {tasks : List Task}
    (plain : ∀ function, .enter function ∉ tasks)
    (children : ∀ source value place, .visit source value place ∈ tasks →
      I (render value place).outline.insideRule) :
    I (PhpRendering.perform render tasks) := by
  induction tasks with
  | nil => exact invariant.silent _ rfl
  | cons task rest ih =>
      have later := ih (fun function held => plain function (List.mem_cons_of_mem _ held))
        fun source value place held => children source value place (List.mem_cons_of_mem _ held)
      refine invariant.andThen _ _ ?_ fun _ => later
      cases task with
      | visit source value place =>
          have rendered := children source value place (List.mem_cons_self ..)
          rwa [← Rule.child_outline] at rendered
      | enter function => exact absurd (List.mem_cons_self ..) (plain function)
      | report diagnostic => exact invariant.silent _ rfl
      | stop fault => exact invariant.silent _ rfl

/-- A declaration enters its function and renders the body. The entry is the last event when
a parameter yields no text or the body is no node. -/
theorem body {options : Options} {function : Node}
    (entered : ∀ body, function.field "body" = .node body → I (.signal (.entered function)))
    (lost : ∀ value, function.field? "body" = some value →
      ∀ crash, I ⟨[.entered function], .error (.crash crash)⟩)
    (child : ∀ body, function.field? "body" = some (.node body) →
      I (render options (.node body) (.within function)).outline.insideRule)
    (position : Position) :
    I (PhpRendering.perform (render options)
      ((Part.present "body").tasks options function position ++
        .enter function :: (Part.parameterTexts.tasks options function position ++
          (Part.text "body").tasks options function position))) := by
  simp only [Part.tasks, Task.needed, Node.require]
  cases found : function.field? "body" with
  | none => exact invariant.silent _ rfl
  | some value =>
      cases texts : function.parametersYieldText with
      | false => exact lost value found .notAName
      | true =>
          cases kind : value.node? with
          | some body =>
              cases value <;> cases kind
              change I (PhpRendering.perform (render options)
                (.enter function :: Task.text "body" (.within function) (.node body)))
              refine invariant.andThen _ _ (entered body (Node.field_of_field? found)) fun _ => ?_
              refine invariant.perform (fun inner among => ?_) fun source value place among => ?_
              · refine Task.forall_wanting (P := (Task.enter inner ≠ ·)) (fun _ => ?_) ?_ _ among rfl
                · exact Task.noConfusion
                · exact List.forall_mem_singleton.mpr Task.noConfusion
              · cases List.mem_singleton.mp (Task.visit_mem_wanting_iff.mp among)
                exact child body found
          | none =>
              have single : Task.text "body" (.within function) value =
                  [.visit (.field "body") value (.within function)] := by
                cases value <;> cases kind <;> rfl
              have crashes : PhpRendering.perform (render options)
                  (.enter function :: Task.text "body" (.within function) value) =
                    ⟨[.entered function], .error (.crash .notANode)⟩ := by
                simp only [single, PhpRendering.perform, Task.perform, Rule.child_outline,
                  render_of_node?_eq_none options kind]
                rfl
              exact crashes.symm ▸ lost value found .notANode

/-- An invariant holds of every rendering when it holds of the entry of each function whose
parameters were rendered. What is known of a node may be what its parent passes on. The
induction is on what is visited. -/
theorem render (J : Node → Prop) {options : Options}
    (passes : ∀ node position source child place, J node →
      .visit source (.node child) place ∈ node.tasks options position → J child)
    (entered : ∀ function position, J function → function.kind = "FunctionDeclaration" →
      (PhpRendering.perform (render options)
        (Part.parameters.tasks options function position)).outcome = .ok () →
      ∀ body, function.field "body" = .node body → I (.signal (.entered function)))
    (lost : ∀ function position, J function → function.kind = "FunctionDeclaration" →
      (PhpRendering.perform (render options)
        (Part.parameters.tasks options function position)).outcome = .ok () →
      ∀ value, function.field? "body" = some value →
        ∀ crash, I ⟨[.entered function], .error (.crash crash)⟩)
    {node : Node} (start : J node) (position : Position) :
    I (PhpRendering.render options (.node node) position).outline.insideRule := by
  induction node, position using Node.visit_induction options with
  | step node position ih =>
      rw [render_outline]
      refine invariant.boundary _ ?_
      have children (source : Source) (value : Value) (place : Position)
          (visits : .visit source value place ∈ node.tasks options position) :
          I (PhpRendering.render options value place).outline.insideRule := by
        cases kind : value.node? with
        | none =>
            rw [render_of_node?_eq_none options kind]
            exact invariant.silent _ rfl
        | some child =>
            cases value <;> cases kind
            exact ih source child place visits (passes _ _ _ _ _ start visits)
      by_cases kind : node.kind = "FunctionDeclaration"
      · rw [Node.tasks_of_declaration kind] at children ⊢
        rw [perform_append]
        refine invariant.andThen _ _ (invariant.perform (fun function among => ?_) ?_) fun fine => ?_
        · have provided := Part.tasks_provided options node position .parameters _ among
          exact absurd provided.1 (by decide)
        · exact fun source value place among =>
            children source value place (List.mem_append_left _ among)
        · refine invariant.body (entered node position start kind fine)
            (lost node position start kind fine) (fun body found => ?_) position
          refine children (.field "body") (.node body) _ (List.mem_append_right _ ?_)
          refine List.mem_append_right _ (List.mem_cons_of_mem _ ?_)
          simp only [Part.tasks, Task.needed, Node.require, found]
          refine List.mem_append_right _ (Task.visit_mem_wanting_iff.mpr ?_)
          exact List.mem_singleton_self _
      · exact invariant.perform (fun function among => kind (Node.kind_of_enter among)) children

end Emission.IsInvariant

/-- What a node passes on to whatever it visits holds of every function that is entered, and
only declarations are. -/
theorem entered_of_visits (J : Node → Prop) {options : Options}
    (passes : ∀ node position source child place, J node →
      .visit source (.node child) place ∈ node.tasks options position → J child)
    {node : Node} (start : J node) (position : Position) :
    ∀ function ∈ (render options (.node node) position).functions,
      J function ∧ function.kind = "FunctionDeclaration" := by
  have invariant : Emission.IsInvariant fun emission =>
      ∀ function ∈ emission.functions, J function ∧ function.kind = "FunctionDeclaration" := by
    refine ⟨fun emission none => ?_, fun first next one later => ?_, fun emission held => ?_⟩
    · rw [none]
      exact List.forall_mem_nil _
    · rcases first.functions_andThen next with same | ⟨result, done, same⟩
      · rw [same]
        exact one
      · rw [same]
        exact List.forall_mem_append.mpr ⟨one, later done⟩
    · rwa [Emission.functions_insideRule, boundary_functions]
  have held := invariant.render J passes
    (fun function _ holds kind _ _ _ => List.forall_mem_singleton.mpr ⟨holds, kind⟩)
    (fun function _ holds kind _ _ _ _ => List.forall_mem_singleton.mpr ⟨holds, kind⟩) start position
  rwa [Emission.functions_insideRule, Emission.functions_outline] at held

end PhpRendering
