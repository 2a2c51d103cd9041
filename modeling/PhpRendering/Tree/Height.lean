import PhpRendering.Tree.Basic

/-!
# Heights of trees

The height of a value is the number of nodes on the longest path down from it. A
field of a node and an item of a list are never as high as the node that holds
them.
-/

namespace PhpRendering

mutual

def Value.height : Value → Nat
  | .node node => node.height
  | .list items => itemsHeight items
  | .record members => membersHeight members
  | .scalar _ => 0
  | .foreign _ => 0

/-- How many nodes lie on the longest path down from a node, itself included. -/
def Node.height : Node → Nat
  | ⟨_, _, fields, _⟩ => membersHeight fields + 1

def itemsHeight : List Value → Nat
  | [] => 0
  | item :: rest => max item.height (itemsHeight rest)

def membersHeight : List (String × Value) → Nat
  | [] => 0
  | (_, value) :: rest => max value.height (membersHeight rest)

end

theorem height_le_of_lookup {fields : List (String × Value)} {name : String} {value : Value}
    (found : fields.lookup name = some value) : value.height ≤ membersHeight fields := by
  induction fields with
  | nil => simp at found
  | cons entry rest ih =>
      obtain ⟨known, held⟩ := entry
      rw [List.lookup_cons] at found
      split at found
      · cases found
        exact Nat.le_max_left _ _
      · exact Nat.le_trans (ih found) (Nat.le_max_right _ _)

/-- A field of a node is lower than the node. -/
theorem Node.height_field_lt (node : Node) (name : String) :
    (node.field name).height < node.height := by
  obtain ⟨origin, kind, fields, location⟩ := node
  unfold Node.field Node.height
  cases found : fields.lookup name with
  | none => exact Nat.succ_pos _
  | some value => exact Nat.lt_succ_of_le (height_le_of_lookup found)

end PhpRendering
