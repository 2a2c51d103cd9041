import PhpRendering.Proofs.Tasks

/-!
# Where rendered values come from

Whatever a rule has rendered is a field of its node, an item of a list there, a copy,
or an assignment for a parameter, and it comes from a field that the part reads.
It stands below its own node, with few exceptions: a function expression is rendered in
its own place, the receiver of a call stands below the callee, and the declarators of a
loop stand below the declaration. A copy that is rendered as a declaration has the name
that it is given there.
-/

namespace PhpRendering

def Task.IsProvided (node : Node) (part : Part) : Task → Prop
  | .visit source value _ => source.Provides node part value
  | .enter function => part = .entry ∧ function = node
  | _ => True

/-- A part has rendered what it reads, and it enters its own node only. -/
theorem Part.tasks_provided (options : Options) (node : Node) (position : Position) (part : Part) :
    ∀ task ∈ part.tasks options node position, task.IsProvided node part := by
  intro task among
  cases part.tasks_do options node position task among with
  | visit provided placed marked => exact provided
  | enter read => exact ⟨read, rfl⟩
  | _ => trivial

section Visit

variable {options : Options} {node : Node} {position place : Position} {source : Source}
  {value : Value}

/-- What a node visits, one of the parts of its construct provides. -/
theorem Node.visit_provided (visits : .visit source value place ∈ node.tasks options position) :
    ∃ construct, Construct.ofKind? node.kind = some construct ∧
      ∃ part ∈ construct.parts, source.Provides node part value := by
  obtain ⟨construct, known, part, listed, among⟩ := (Node.part_of_task visits).resolve_left nofun
  exact ⟨construct, known, part, listed, part.tasks_provided options node position _ among⟩

/-- What a node visits, one of the parts of its construct has rendered in its place. -/
theorem Node.visit_placed (visits : .visit source value place ∈ node.tasks options position) :
    Task.IsPlaced options node position (.visit source value place) := by
  obtain ⟨construct, known, part, listed, among⟩ := (Node.part_of_task visits).resolve_left nofun
  cases part.tasks_do options node position _ among with
  | visit provided placed marked => exact placed

end Visit

end PhpRendering
