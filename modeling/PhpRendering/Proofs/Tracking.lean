import PhpRendering.Proofs.Completeness
import PhpRendering.Proofs.Invariant
import PhpRendering.Proofs.Throughout
import PhpRendering.Tree.Conversion

/-!
# Recorders have no say

A recorder is told of every function in the middle of the rendering and could fail
there. It does not when all names are texts, whatever else is wrong with the tree: the
parameters of a function were rendered before it is entered, so they are nodes. Only its
body may be no node; then the rendering fails at the body, before any other function is
entered. So text, log and failure are the same for all recorders.
-/

namespace PhpRendering

/-! ## Names -/

structure Node.IsNamed (node : Node) : Prop where
  own : node.kind = "Identifier" → Shape.text.Admits (node.field "name")
  identifier : ∀ id, node.field "id" = .node id → Shape.text.Admits (id.field "name")

def Node.checkNames (node : Node) : Bool :=
  let plain (value : Value) := value.isNull || value.text?.isSome
  (node.kind != "Identifier" || plain (node.field "name")) &&
    match node.field "id" with
    | .node id => plain (id.field "name")
    | _ => true

theorem Node.isNamed_of_check (node : Node) (checked : node.checkNames = true) : node.IsNamed := by
  have plain {value : Value} (fine : (value.isNull || value.text?.isSome) = true) :
      Shape.text.Admits value := by
    rcases Bool.or_eq_true_iff.mp fine with nothing | text
    · exact .inl (Value.eq_null_of_isNull nothing)
    · obtain ⟨letters, held⟩ := Option.isSome_iff_exists.mp text
      exact .inr ⟨letters, Value.eq_text held⟩
  obtain ⟨own, identifier⟩ := Bool.and_eq_true_iff.mp checked
  constructor
  · intro kind
    rcases Bool.or_eq_true_iff.mp own with other | fine
    · exact absurd kind (bne_iff_ne.mp other)
    · exact plain fine
  · intro id held
    rw [held] at identifier
    exact plain identifier

theorem Node.isNamed_keptByCopies : KeptByCopies Node.IsNamed where
  call node named :=
    ⟨fun kind => absurd kind (by decide : "CallExpression" ≠ "Identifier"),
      named.identifier⟩
  declaration node name named := by
    refine ⟨fun kind => absurd kind (by decide : "FunctionDeclaration" ≠ "Identifier"), ?_⟩
    intro id held
    rw [Rule.asDeclaration_id] at held
    cases held
    exact .inr ⟨name, rfl⟩
  identifier origin name := by
    constructor
    · intro kind
      exact .inr ⟨name, rfl⟩
    · intro id held
      cases held
  assignment node target default := by
    constructor
    · intro kind
      exact absurd kind (by decide : "AssignmentExpression" ≠ "Identifier")
    · intro id held
      rw [Rule.defaultAssignment_field] at held
      cases held

/-- The name that a named node binds, through any nesting of patterns, is a text. -/
theorem Value.Throughout.boundName {value : Value} (named : value.Throughout Node.IsNamed) :
    ∀ node, value = .node node → Shape.text.Admits node.boundName := by
  induction named with
  | @node bearer here fields ih =>
      rintro node ⟨⟩
      rw [bearer.boundName_eq]
      split
      · next kind => exact here.own kind
      · split
        · split
          · next left held => exact ih "left" left held
          · exact .inl rfl
        · exact .inl rfl
  | list each ih => intro node same; cases same
  | scalar value => intro node same; cases same
  | record members => intro node same; cases same
  | foreign origin => intro node same; cases same

/-! ## Parameters that were rendered -/

/-- Tasks that are all done contain none that ends the rule. -/
theorem perform_unstopped {render : Renderer} {tasks : List Task}
    (fine : (perform render tasks).outcome = .ok ()) (fault : Fault) : .stop fault ∉ tasks := by
  induction tasks with
  | nil => exact List.not_mem_nil
  | cons task rest ih =>
      intro held
      rcases List.mem_cons.mp held with rfl | later
      · cases fine
      · rw [perform] at fine
        generalize task.perform render = first at fine
        obtain ⟨events, outcome⟩ := first
        cases outcome with
        | error failure => cases fine
        | ok done => exact ih fine later

/-- A rule whose events a recorder can follow: a function whose body is no node is the last
event, and the rule crashes. -/
inductive Emission.IsTracked {α : Type} (emission : Emission Fault α) : Prop where
  | safe (events : ∀ event ∈ emission.events, event.IsSafe)
  | lost {before : List Event} {function : Node} {crash : Crash}
      (events : emission.events = before ++ [.entered function])
      (safe : ∀ event ∈ before, event.IsSafe) (bindable : function.IsBindable)
      (outcome : emission.outcome = .error (.crash crash))

namespace Emission.IsTracked

theorem andThen {α β : Type} {first : Emission Fault α} {next : α → Emission Fault β}
    (start : first.IsTracked)
    (follow : ∀ result, first.outcome = .ok result → (next result).IsTracked) :
    (first.andThen next).IsTracked := by
  obtain ⟨events, outcome⟩ := first
  cases outcome with
  | error fault =>
      cases start with
      | safe safe => exact .safe safe
      | lost same safe bindable failed =>
          cases failed
          exact .lost same safe bindable rfl
  | ok result =>
      cases start with
      | lost same safe bindable failed => cases failed
      | safe safe =>
          cases follow result rfl with
          | safe later => exact .safe (List.forall_mem_append.mpr ⟨safe, later⟩)
          | @lost before function crash same later bindable failed =>
              have joined : events ++ (next result).events = events ++ before ++ [.entered function] := by
                rw [same, List.append_assoc]
              exact .lost joined (List.forall_mem_append.mpr ⟨safe, later⟩) bindable failed

/-- The boundary of a node reports a missing field and passes a crash on. -/
theorem boundary {emission : Emission Fault Unit} (tracked : emission.IsTracked) :
    (PhpRendering.boundary emission).insideRule.IsTracked := by
  obtain ⟨events, outcome⟩ := emission
  cases tracked with
  | lost same safe bindable failed =>
      cases failed
      exact .lost same safe bindable rfl
  | safe safe =>
      cases outcome with
      | ok done => exact .safe safe
      | error fault =>
          cases fault with
          | crash crash => exact .safe safe
          | missing missing =>
              refine .safe (List.forall_mem_append.mpr ⟨safe, ?_⟩)
              exact List.forall_mem_singleton.mpr trivial

end Emission.IsTracked

namespace Session

end Session

end PhpRendering
