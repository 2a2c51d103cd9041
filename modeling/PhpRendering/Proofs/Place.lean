import PhpRendering.Proofs.Fields
import PhpRendering.Tree.Containment
import PhpRendering.Tree.Conversion

/-!
# Places in trees

A value is located when each node in it keeps the place where it stands, as it does in
a tree that was just converted. Among located values a search for a place finds only
what lies there or below, and it finds every node that fields and lists lead to.
-/

namespace PhpRendering

/-! ## Places below places -/

/-- Whether a place is another one or lies below it. -/
def Origin.IsWithin (inner outer : Origin) : Prop :=
  inner.tree = outer.tree ∧ outer.steps <:+ inner.steps

namespace Origin.IsWithin

theorem refl (origin : Origin) : origin.IsWithin origin :=
  ⟨rfl, List.suffix_refl _⟩

theorem down (origin : Origin) (step : Step) : (origin.down step).IsWithin origin :=
  ⟨rfl, List.suffix_cons _ _⟩

theorem trans {inner middle outer : Origin} (first : inner.IsWithin middle)
    (second : middle.IsWithin outer) : inner.IsWithin outer :=
  ⟨first.1.trans second.1, second.2.trans first.2⟩

/-- Of two places with something in common below them, one lies below the other. -/
theorem total {inner first second : Origin} (below : inner.IsWithin first)
    (belowToo : inner.IsWithin second) : first.IsWithin second ∨ second.IsWithin first := by
  have sameTree : first.tree = second.tree := below.1.symm.trans belowToo.1
  rcases List.suffix_or_suffix_of_suffix below.2 belowToo.2 with shorter | longer
  · exact .inr ⟨sameTree.symm, shorter⟩
  · exact .inl ⟨sameTree, longer⟩

end Origin.IsWithin

/-- No place lies below a place below it. -/
theorem Origin.not_isWithin_down (origin : Origin) (step : Step) :
    ¬ origin.IsWithin (origin.down step) := by
  rintro ⟨-, deeper⟩
  exact Nat.not_succ_le_self _ deeper.length_le

/-! ## Located values -/

/-- Whether the nodes of a value at a place keep the places where they stand. -/
inductive Value.IsLocated : Origin → Value → Prop where
  | node {node : Node}
      (fields : ∀ entry ∈ node.fields, IsLocated (node.origin.down (.member entry.1)) entry.2) :
      IsLocated node.origin (.node node)
  | list {origin : Origin} {items : List Value}
      (each : ∀ index item, items[index]? = some item →
        IsLocated (origin.down (.item index)) item) : IsLocated origin (.list items)
  | scalar (origin : Origin) (value : Scalar) : IsLocated origin (.scalar value)
  | record (origin : Origin) (members : List (String × Value)) : IsLocated origin (.record members)
  | foreign (origin place : Origin) : IsLocated origin (.foreign place)

mutual

/-- A converted tree is located. -/
theorem TreeForm.convert_isLocated (form : TreeForm) (origin : Origin) (source : Json) :
    (form.convert origin source).IsLocated origin := by
  cases source with
  | scalar value => exact .scalar origin value
  | array items =>
      refine .list fun index item place => ?_
      have located := form.convertItems_isLocated origin 0 items index item place
      rwa [Nat.zero_add] at located
  | object members =>
      unfold TreeForm.convert
      split
      · next type typed =>
          exact @Value.IsLocated.node
            ⟨origin, type.shown, form.convertFields origin members, form.location members⟩
            (form.convertFields_isLocated origin members)
      · cases form with
        | data => exact .record origin _
        | objects => exact .foreign origin origin

theorem TreeForm.convertItems_isLocated (form : TreeForm) (origin : Origin) (start : Nat)
    (items : List Json) (index : Nat) (item : Value)
    (place : (form.convertItems origin start items)[index]? = some item) :
    item.IsLocated (origin.down (.item (start + index))) := by
  cases items with
  | nil => cases place
  | cons first rest =>
      cases index with
      | zero =>
          cases place
          exact form.convert_isLocated _ first
      | succ index =>
          have located := form.convertItems_isLocated origin (start + 1) rest index item place
          rwa [Nat.add_assoc, Nat.add_comm 1] at located

theorem TreeForm.convertFields_isLocated (form : TreeForm) (origin : Origin)
    (members : List (String × Json)) :
    ∀ entry ∈ form.convertFields origin members,
      entry.2.IsLocated (origin.down (.member entry.1)) := by
  cases members with
  | nil => exact List.forall_mem_nil _
  | cons first rest =>
      obtain ⟨name, value⟩ := first
      have later := form.convertFields_isLocated origin rest
      unfold TreeForm.convertFields
      split
      · exact List.forall_mem_cons.mpr ⟨form.convert_isLocated _ value, later⟩
      · exact later

end

namespace Value.IsLocated

theorem origin_eq {origin : Origin} {node : Node} (located : IsLocated origin (.node node)) :
    node.origin = origin := by
  cases located
  rfl

/-- A field of a located node is located. -/
theorem field {origin : Origin} {node : Node} (located : IsLocated origin (.node node))
    (name : String) : IsLocated (origin.down (.member name)) (node.field name) := by
  cases located with
  | node fields =>
      unfold Node.field
      cases found : node.fields.lookup name with
      | none => exact .scalar _ _
      | some value =>
          obtain ⟨before, after, same, -⟩ := List.lookup_eq_some_iff.mp found
          apply fields (name, value)
          rw [same]
          exact List.mem_append_right _ (List.mem_cons_self ..)

/-- An item of a located list is located. -/
theorem item {origin : Origin} {items : List Value} (located : IsLocated origin (.list items))
    {index : Nat} {item : Value} (place : items[index]? = some item) :
    IsLocated (origin.down (.item index)) item := by
  cases located with
  | list each => exact each index item place

end Value.IsLocated

/-! ## Searches -/

theorem itemsLeadTo_iff {target : Origin} {items : List Value} :
    itemsLeadTo target items = true ↔
      ∃ node, .node node ∈ items ∧ node.contains target = true := by
  induction items with
  | nil => simp [itemsLeadTo]
  | cons item rest ih => cases item <;> simp [itemsLeadTo, ih]

theorem membersLeadTo_iff {target : Origin} {fields : List (String × Value)} :
    membersLeadTo target fields = true ↔
      ∃ entry ∈ fields, entry.2.leadsTo target = true := by
  induction fields with
  | nil => simp [membersLeadTo]
  | cons entry rest ih => simp [membersLeadTo, ih]

theorem Node.contains_iff {target : Origin} {node : Node} :
    node.contains target = true ↔
      node.origin = target ∨ ∃ entry ∈ node.fields, entry.2.leadsTo target = true := by
  obtain ⟨origin, kind, fields, location⟩ := node
  simp [Node.contains, membersLeadTo_iff]

theorem Node.contains_self (node : Node) : node.contains node.origin = true :=
  Node.contains_iff.mpr (.inl rfl)

/-- A search in a located value finds only what lies below the value. -/
theorem Value.IsLocated.isWithin_of_leadsTo {origin target : Origin} {value : Value}
    (located : value.IsLocated origin) (leads : value.leadsTo target = true) :
    target.IsWithin origin := by
  induction located with
  | @node node fields ih =>
      rcases Node.contains_iff.mp leads with rfl | ⟨entry, held, deeper⟩
      · exact .refl _
      · exact (ih entry held deeper).trans (.down _ _)
  | @list origin items each ih =>
      obtain ⟨node, held, deeper⟩ := itemsLeadTo_iff.mp leads
      obtain ⟨index, place⟩ := List.getElem?_of_mem held
      exact (ih index _ place deeper).trans (.down _ _)
  | scalar origin value => cases leads
  | record origin members => cases leads
  | foreign origin place => cases leads

/-- Whether fields and lists of nodes lead from one node to another. -/
inductive Node.Leads (first : Node) : Node → Prop where
  | refl : Leads first first
  | field {parent child : Node} {name : String} (leads : Leads first parent)
      (held : parent.field name = .node child) : Leads first child
  | item {parent child : Node} {name : String} {items : List Value} {index : Nat}
      (leads : Leads first parent) (held : parent.field name = .list items)
      (place : items[index]? = some (.node child)) : Leads first child

theorem Node.contains_of_field {target : Origin} {node : Node} {name : String}
    (leads : (node.field name).leadsTo target = true) : node.contains target = true := by
  unfold Node.field at leads
  cases found : node.fields.lookup name with
  | none =>
      rw [found] at leads
      cases leads
  | some value =>
      rw [found] at leads
      obtain ⟨before, after, same, -⟩ := List.lookup_eq_some_iff.mp found
      refine Node.contains_iff.mpr (.inr ⟨(name, value), ?_, leads⟩)
      rw [same]
      exact List.mem_append_right _ (List.mem_cons_self ..)

namespace Node.Leads

/-- Whatever the last node of a way contains, the first one contains. -/
theorem contains {first last : Node} (leads : Leads first last) {target : Origin}
    (inside : last.contains target = true) : first.contains target = true := by
  induction leads with
  | refl => exact inside
  | field leads held ih =>
      apply ih
      apply contains_of_field
      rw [held]
      exact inside
  | @item parent child name items index leads held place ih =>
      apply ih
      apply contains_of_field
      rw [held]
      exact itemsLeadTo_iff.mpr ⟨_, List.mem_of_getElem? place, inside⟩

/-- A located node leads to located nodes. -/
theorem isLocated {first last : Node} (leads : Leads first last)
    (located : (Value.node first).IsLocated first.origin) :
    (Value.node last).IsLocated last.origin := by
  induction leads with
  | refl => exact located
  | @field parent child name leads held ih =>
      have below := ih.field name
      rw [held] at below
      rwa [← below.origin_eq] at below
  | @item parent child name items index leads held place ih =>
      have below := ih.field name
      rw [held] at below
      have inside := below.item place
      rwa [← inside.origin_eq] at inside

end Node.Leads

end PhpRendering
