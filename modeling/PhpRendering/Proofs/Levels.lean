import PhpRendering.Proofs.Reading
import PhpRendering.Tree.Height

/-!
# Levels of trees

The levels of a value are the nodes on the longest path down from it through the fields
of nodes and the items of lists. Plain data counts for nothing, whatever stands in it,
because no rule looks for a node there. So there are never more levels than the height
allows, and a field of a node or an item of a list has fewer levels than the node.
-/

namespace PhpRendering

mutual

def Value.levels : Value → Nat
  | .node node => node.levels
  | .list items => itemsLevels items
  | .record _ => 0
  | .scalar _ => 0
  | .foreign _ => 0

/-- How many nodes lie on the longest path of fields and items down from a node, itself
included. -/
def Node.levels : Node → Nat
  | ⟨_, _, fields, _⟩ => membersLevels fields + 1

def itemsLevels : List Value → Nat
  | [] => 0
  | item :: rest => max item.levels (itemsLevels rest)

def membersLevels : List (String × Value) → Nat
  | [] => 0
  | (_, value) :: rest => max value.levels (membersLevels rest)

end

mutual

/-- There are never more levels than the height allows. -/
theorem Value.levels_le_height (value : Value) : value.levels ≤ value.height := by
  cases value with
  | node node => exact node.levels_le_height
  | list items => exact itemsLevels_le_height items
  | record members => exact Nat.zero_le _
  | scalar scalar => exact Nat.le_refl _
  | foreign origin => exact Nat.le_refl _

theorem Node.levels_le_height (node : Node) : node.levels ≤ node.height := by
  obtain ⟨origin, kind, fields, location⟩ := node
  exact Nat.succ_le_succ (membersLevels_le_height fields)

theorem itemsLevels_le_height (items : List Value) : itemsLevels items ≤ itemsHeight items := by
  cases items with
  | nil => exact Nat.le_refl _
  | cons item rest =>
      apply Nat.max_le.mpr
      constructor
      · exact Nat.le_trans item.levels_le_height (Nat.le_max_left _ _)
      · exact Nat.le_trans (itemsLevels_le_height rest) (Nat.le_max_right _ _)

theorem membersLevels_le_height (members : List (String × Value)) :
    membersLevels members ≤ membersHeight members := by
  cases members with
  | nil => exact Nat.le_refl _
  | cons entry rest =>
      obtain ⟨name, value⟩ := entry
      apply Nat.max_le.mpr
      constructor
      · exact Nat.le_trans value.levels_le_height (Nat.le_max_left _ _)
      · exact Nat.le_trans (membersLevels_le_height rest) (Nat.le_max_right _ _)

end

/-! ## Levels of fields and items -/

def Node.innerLevels (node : Node) : Nat :=
  membersLevels node.fields

def Node.functionLevels (node : Node) : Nat :=
  max (node.field "params").levels (max (node.field "defaults").levels (node.field "body").levels)

theorem Node.levels_eq (node : Node) : node.levels = node.innerLevels + 1 := by
  obtain ⟨origin, kind, fields, location⟩ := node
  rfl

theorem Node.levels_pos (node : Node) : 0 < node.levels := by
  rw [node.levels_eq]
  exact Nat.succ_pos _

theorem levels_le_of_lookup {fields : List (String × Value)} {name : String} {value : Value}
    (found : fields.lookup name = some value) : value.levels ≤ membersLevels fields := by
  induction fields with
  | nil => cases found
  | cons entry rest ih =>
      obtain ⟨known, held⟩ := entry
      rw [List.lookup_cons] at found
      split at found
      · cases found
        exact Nat.le_max_left _ _
      · exact Nat.le_trans (ih found) (Nat.le_max_right _ _)

theorem Node.levels_field_le (node : Node) (name : String) :
    (node.field name).levels ≤ node.innerLevels := by
  unfold Node.field Node.innerLevels
  cases found : node.fields.lookup name with
  | none => exact Nat.zero_le _
  | some value => exact levels_le_of_lookup found

/-- A field of a node has fewer levels than the node. -/
theorem Node.levels_field_lt (node : Node) (name : String) :
    (node.field name).levels < node.levels := by
  rw [node.levels_eq]
  exact Nat.lt_succ_of_le (node.levels_field_le name)

theorem Node.levels_field?_lt {node : Node} {name : String} {value : Value}
    (found : node.field? name = some value) : value.levels < node.levels := by
  rw [← Node.field_of_field? found]
  exact node.levels_field_lt name

theorem Node.functionLevels_le (node : Node) : node.functionLevels ≤ node.innerLevels := by
  apply Nat.max_le.mpr
  constructor
  · exact node.levels_field_le "params"
  · exact Nat.max_le.mpr ⟨node.levels_field_le "defaults", node.levels_field_le "body"⟩

theorem Node.levels_functionField_le {node : Node} {name : String}
    (listed : name ∈ ["params", "defaults", "body"]) :
    (node.field name).levels ≤ node.functionLevels := by
  unfold Node.functionLevels
  rcases List.mem_cons.mp listed with rfl | later
  · exact Nat.le_max_left _ _
  · rcases List.mem_cons.mp later with rfl | last
    · exact Nat.le_trans (Nat.le_max_left _ _) (Nat.le_max_right _ _)
    · rw [List.mem_singleton.mp last]
      exact Nat.le_trans (Nat.le_max_right _ _) (Nat.le_max_right _ _)

/-- An item of a list has no more levels than the list. -/
theorem levels_le_of_mem {items : List Value} {item : Value} (held : item ∈ items) :
    item.levels ≤ itemsLevels items := by
  induction items with
  | nil => cases held
  | cons first rest ih =>
      cases held with
      | head => exact Nat.le_max_left _ _
      | tail _ later => exact Nat.le_trans (ih later) (Nat.le_max_right _ _)

theorem Value.levels_le_of_items {value item : Value} {items : List Value}
    (listed : value.items = .ok items) (held : item ∈ items) : item.levels ≤ value.levels := by
  cases value with
  | list known =>
      cases listed
      exact levels_le_of_mem held
  | scalar scalar =>
      cases scalar with
      | text letters =>
          cases listed
          obtain ⟨letter, _, rfl⟩ := List.mem_map.mp held
          exact Nat.le_refl _
      | null => cases listed
      | bool flag => cases listed
      | int number => cases listed
      | float number => cases listed
  | record members =>
      cases listed
      obtain ⟨entry, _, rfl⟩ := List.mem_map.mp held
      exact Nat.zero_le _
  | foreign origin => cases listed
  | node node => cases listed

theorem Value.levels_itemAt_le {value item : Value} {index : Nat}
    (found : value.itemAt index = .ok item) : item.levels ≤ value.levels := by
  cases nothing : item.isNull with
  | true =>
      rw [Value.eq_null_of_isNull nothing]
      exact Nat.zero_le _
  | false =>
      obtain ⟨items, listed, place⟩ := Value.getElem?_of_itemAt found nothing
      exact Value.levels_le_of_items listed (List.mem_of_getElem? place)

end PhpRendering
