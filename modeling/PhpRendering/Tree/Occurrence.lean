import PhpRendering.Tree.Basic

/-!
# Occurrences

An occurrence is a value together with the place where it stands. Values that are
equal but stand at two places are two values, except for the scalars of which
there is only one.
-/

namespace PhpRendering

structure Occurrence where
  value : Value
  origin : Origin

/-- Whether two occurrences are of one and the same value. A node keeps the place
where it was read. -/
def Occurrence.isSame (first second : Occurrence) : Bool :=
  match first.value, second.value with
  | .node one, .node other => one.origin == other.origin
  | .scalar one, .scalar other =>
      one == other && (one.isUnique || first.origin == second.origin)
  | .node _, _ => false
  | _, .node _ => false
  | _, _ => first.origin == second.origin

def Node.occurrence (node : Node) (name : String) : Occurrence :=
  ⟨node.field name, node.origin.down (.member name)⟩

def Occurrence.root (tree : Nat) (value : Value) : Occurrence :=
  ⟨value, ⟨tree, []⟩⟩

end PhpRendering
