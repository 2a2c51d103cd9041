import PhpRendering.Proofs.Source

/-!
# Properties throughout a tree

A property holds throughout a value when every node has it that fields and lists lead to.
What a node has rendered are nodes below it and copies, so a property that copies keep
holds throughout everything that is rendered.
-/

namespace PhpRendering

/-- Whether every node of a value has a property. Plain data is not searched. -/
inductive Value.Throughout (P : Node → Prop) : Value → Prop where
  | node {node : Node} (here : P node) (fields : ∀ name, Throughout P (node.field name)) :
      Throughout P (.node node)
  | list {items : List Value} (each : ∀ item ∈ items, Throughout P item) :
      Throughout P (.list items)
  | scalar (value : Scalar) : Throughout P (.scalar value)
  | record (members : List (String × Value)) : Throughout P (.record members)
  | foreign (origin : Origin) : Throughout P (.foreign origin)

namespace Value.Throughout

variable {P : Node → Prop} {node : Node} {value : Value}

theorem here (whole : Throughout P (.node node)) : P node := by
  cases whole with
  | node here fields => exact here

theorem field (whole : Throughout P (.node node)) (name : String) :
    (node.field name).Throughout P := by
  cases whole with
  | node here fields => exact fields name

theorem field? (whole : Throughout P (.node node)) {name : String}
    (found : node.field? name = some value) : value.Throughout P := by
  rw [← Node.field_of_field? found]
  exact whole.field name

theorem items {items : List Value} (whole : value.Throughout P) (listed : value.items = .ok items) :
    ∀ item ∈ items, item.Throughout P := by
  intro item inside
  cases item with
  | node child =>
      rw [Value.eq_list_of_items listed inside] at whole
      cases whole with
      | list each => exact each _ inside
  | list inner =>
      cases value with
      | list known =>
          cases listed
          cases whole with
          | list each => exact each _ inside
      | scalar scalar =>
          cases scalar with
          | text letters =>
              cases listed
              obtain ⟨letter, -, same⟩ := List.mem_map.mp inside
              cases same
          | null => cases listed
          | bool flag => cases listed
          | int number => cases listed
          | float number => cases listed
      | record members =>
          cases listed
          obtain ⟨entry, -, same⟩ := List.mem_map.mp inside
          cases same
      | foreign origin => cases listed
      | node node => cases listed
  | scalar scalar => exact .scalar scalar
  | record members => exact .record members
  | foreign origin => exact .foreign origin

theorem itemAt {item : Value} {index : Nat} (whole : value.Throughout P)
    (given : value.itemAt index = .ok item) : item.Throughout P := by
  cases nothing : item.isNull with
  | true =>
      rw [Value.eq_null_of_isNull nothing]
      exact .scalar _
  | false =>
      obtain ⟨items, listed, place⟩ := Value.getElem?_of_itemAt given nothing
      exact whole.items listed item (List.mem_of_getElem? place)

end Value.Throughout

/-! ## Copies -/

/-- Whether the nodes that are made for rendering have a property when the nodes that they
are made of have it. -/
structure KeptByCopies (P : Node → Prop) : Prop where
  call : ∀ node, P node → P (Rule.asCall node)
  declaration : ∀ node name, P node → P (Rule.asDeclaration node name)
  identifier : ∀ origin name, P ⟨origin, "Identifier", [("name", .text name)], none⟩
  assignment : ∀ node target default, P (Rule.defaultAssignment node target default)

namespace Value.Throughout

variable {P : Node → Prop} {node : Node}

/-- A node with a single text. -/
theorem identifier (kept : KeptByCopies P) (origin : Origin) (name : String) :
    Throughout P (.node ⟨origin, "Identifier", [("name", .text name)], none⟩) := by
  refine .node (kept.identifier origin name) fun field => ?_
  rcases Node.field_eq_null_or_mem ⟨origin, "Identifier", [("name", .text name)], none⟩ field
    with nothing | listed
  · rw [nothing]
    exact .scalar _
  · rw [(Prod.mk.inj (List.mem_singleton.mp listed)).2]
    exact .scalar _

theorem asCall (kept : KeptByCopies P) (whole : Throughout P (.node node)) :
    Throughout P (.node (Rule.asCall node)) :=
  .node (kept.call node whole.here) fun name => whole.field name

theorem asDeclaration (kept : KeptByCopies P) (whole : Throughout P (.node node)) (name : String) :
    Throughout P (.node (Rule.asDeclaration node name)) := by
  refine .node (kept.declaration node name whole.here) fun field => ?_
  by_cases named : field = "id"
  · subst named
    rw [Rule.asDeclaration_id]
    exact identifier kept _ name
  · rw [Rule.asDeclaration_field named]
    exact whole.field field

theorem defaultAssignment (kept : KeptByCopies P) (function : Node) {target default : Value}
    (left : target.Throughout P) (right : default.Throughout P) :
    Throughout P (.node (Rule.defaultAssignment function target default)) := by
  refine .node (kept.assignment function target default) fun field => ?_
  rw [Rule.defaultAssignment_field]
  split
  · exact .scalar _
  · split
    · exact left
    · split
      · exact right
      · exact .scalar _

/-- Whatever a node provides for rendering has a property that the node has throughout. -/
theorem provided (kept : KeptByCopies P) (whole : Throughout P (.node node)) {part : Part}
    {source : Source} {value : Value} (provided : source.Provides node part value) :
    value.Throughout P := by
  cases provided with
  | call read => exact whole.asCall kept
  | declaration read name => exact whole.asDeclaration kept name
  | field read single found direct => exact whole.field? found
  | item read several held place rendered =>
      exact (whole.field _).items held _ (List.mem_of_getElem? place)
  | receiver read held role found =>
      have callee := whole.field "callee"
      rw [held] at callee
      exact callee.field? found
  | declarator read held kind declared place =>
      have start := whole.field "init"
      rw [held] at start
      exact (start.field "declarations").items declared _ (List.mem_of_getElem? place)
  | method read held name =>
      have function := whole.field "value"
      rw [held] at function
      exact function.asDeclaration kept name
  | pattern read held place kind left right =>
      have param := (whole.field "params").items held _ (List.mem_of_getElem? place)
      exact defaultAssignment kept node (param.field? left) (param.field? right)
  | defaulted read held place kind readDefaults given something =>
      have param := (whole.field "params").items held _ (List.mem_of_getElem? place)
      exact defaultAssignment kept node param ((whole.field "defaults").itemAt given)

/-- Whatever a node visits has a property that the node has throughout. -/
theorem visit (kept : KeptByCopies P) (whole : Throughout P (.node node)) {options : Options}
    {position place : Position} {source : Source} {value : Value}
    (visits : .visit source value place ∈ node.tasks options position) : value.Throughout P := by
  obtain ⟨construct, known, part, listed, provided⟩ := Node.visit_provided visits
  exact whole.provided kept provided

end Value.Throughout

/-! ## A check of all nodes -/

mutual

def Value.checkAll (check : Node → Bool) : Value → Bool
  | .node node => check node && node.checkFields check
  | .list items => itemsCheckAll check items
  | _ => true

def Node.checkFields (check : Node → Bool) : Node → Bool
  | ⟨_, _, fields, _⟩ => membersCheckAll check fields

def itemsCheckAll (check : Node → Bool) : List Value → Bool
  | [] => true
  | item :: rest => item.checkAll check && itemsCheckAll check rest

def membersCheckAll (check : Node → Bool) : List (String × Value) → Bool
  | [] => true
  | (_, value) :: rest => value.checkAll check && membersCheckAll check rest

end

variable {check : Node → Bool} {P : Node → Prop}

mutual

/-- A property that is checked for every node holds throughout. -/
theorem Value.throughout_of_check (sound : ∀ node, check node = true → P node) (value : Value)
    (checked : value.checkAll check = true) : value.Throughout P := by
  cases value with
  | node node =>
      obtain ⟨origin, kind, fields, location⟩ := node
      obtain ⟨here, below⟩ := Bool.and_eq_true_iff.mp checked
      exact .node (sound _ here) fun name => membersThroughout_of_check sound fields below name
  | list items => exact .list (itemsThroughout_of_check sound items checked)
  | scalar value => exact .scalar value
  | record members => exact .record members
  | foreign origin => exact .foreign origin

theorem itemsThroughout_of_check (sound : ∀ node, check node = true → P node) (items : List Value)
    (checked : itemsCheckAll check items = true) : ∀ item ∈ items, item.Throughout P := by
  cases items with
  | nil => exact List.forall_mem_nil _
  | cons item rest =>
      obtain ⟨first, later⟩ := Bool.and_eq_true_iff.mp checked
      exact List.forall_mem_cons.mpr
        ⟨item.throughout_of_check sound first, itemsThroughout_of_check sound rest later⟩

theorem membersThroughout_of_check (sound : ∀ node, check node = true → P node)
    (members : List (String × Value)) (checked : membersCheckAll check members = true) (name : String) :
    ((members.lookup name).getD .null).Throughout P := by
  cases members with
  | nil => exact .scalar _
  | cons entry rest =>
      obtain ⟨known, value⟩ := entry
      obtain ⟨first, later⟩ := Bool.and_eq_true_iff.mp checked
      rw [List.lookup_cons]
      split
      · exact value.throughout_of_check sound first
      · exact membersThroughout_of_check sound rest later name

end

end PhpRendering
