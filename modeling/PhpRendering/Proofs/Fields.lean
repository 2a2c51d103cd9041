import PhpRendering.Rule.Access
import PhpRendering.Rule.Function

/-!
# Fields of nodes and of their copies

A field is found when it holds something. Constructions are rendered as calls, and
function expressions and methods as declarations: such a copy stands at the place of
the node and has its fields; only the kind differs, and in a declaration the name.
-/

namespace PhpRendering

theorem Value.eq_null_of_isNull {value : Value} (nothing : value.isNull = true) :
    value = .null := by
  cases value with
  | scalar scalar =>
      cases scalar with
      | null => rfl
      | bool flag => cases nothing
      | int number => cases nothing
      | float number => cases nothing
      | text letters => cases nothing
  | list items => cases nothing
  | record members => cases nothing
  | foreign origin => cases nothing
  | node node => cases nothing

theorem Value.asNode_eq_ok {value : Value} {node : Node} (found : value.asNode = .ok node) :
    value = .node node := by
  cases value with
  | node held =>
      cases found
      rfl
  | scalar scalar => cases found
  | list items => cases found
  | record members => cases found
  | foreign origin => cases found

theorem Value.eq_text {value : Value} {text : String} (found : value.text? = some text) :
    value = .text text := by
  unfold Value.text? at found
  split at found
  · cases found
    rfl
  · cases found

theorem Value.itemAt_list (items : List Value) (index : Nat) :
    (Value.list items).itemAt index = .ok (items[index]?.getD .null) := rfl

/-- Only lists have nodes as items. -/
theorem Value.eq_list_of_items {value : Value} {items : List Value} {child : Node}
    (listed : value.items = .ok items) (held : .node child ∈ items) : value = .list items := by
  cases value with
  | list known =>
      cases listed
      rfl
  | scalar scalar =>
      cases scalar with
      | text letters =>
          cases listed
          obtain ⟨letter, _, same⟩ := List.mem_map.mp held
          cases same
      | null => cases listed
      | bool flag => cases listed
      | int number => cases listed
      | float number => cases listed
  | record members =>
      cases listed
      obtain ⟨entry, _, same⟩ := List.mem_map.mp held
      cases same
  | foreign origin => cases listed
  | node node => cases listed

/-- Whatever stands at a position, and is not nothing, is an item. -/
theorem Value.getElem?_of_itemAt {value item : Value} {index : Nat}
    (found : value.itemAt index = .ok item) (something : item.isNull = false) :
    ∃ items, value.items = .ok items ∧ items[index]? = some item := by
  unfold Value.itemAt at found
  split at found
  · split at found
    · cases found
    · cases found
      cases something
  · cases listed : value.items with
    | error crash =>
        rw [listed] at found
        cases found
    | ok items =>
        rw [listed] at found
        cases found
        cases held : items[index]? with
        | none =>
            rw [held] at something
            cases something
        | some item => exact ⟨items, rfl, held⟩

namespace Node

variable {node : Node} {name : String} {value : Value}

theorem field?_eq_some_iff :
    node.field? name = some value ↔ node.field name = value ∧ value.isNull = false := by
  simp only [field?]
  cases nothing : (node.field name).isNull with
  | true =>
      simp only [if_true, reduceCtorEq, false_iff]
      rintro ⟨rfl, something⟩
      rw [nothing] at something
      cases something
  | false =>
      simp only [Bool.false_eq_true, if_false, Option.some.injEq]
      constructor
      · rintro rfl
        exact ⟨rfl, nothing⟩
      · exact fun found => found.1

theorem field?_eq_none_iff : node.field? name = none ↔ node.field name = .null := by
  simp only [field?]
  cases nothing : (node.field name).isNull with
  | true => simp [Value.eq_null_of_isNull nothing]
  | false =>
      simp only [Bool.false_eq_true, if_false, reduceCtorEq, false_iff]
      intro same
      rw [same] at nothing
      cases nothing

/-- A field that holds something is listed. -/
theorem field_eq_null_or_mem (node : Node) (name : String) :
    node.field name = .null ∨ (name, node.field name) ∈ node.fields := by
  unfold field
  cases found : node.fields.lookup name with
  | none => exact .inl rfl
  | some value =>
      obtain ⟨before, after, same, -⟩ := List.lookup_eq_some_iff.mp found
      rw [same]
      exact .inr (List.mem_append_right _ (List.mem_cons_self ..))

theorem field_of_field? (found : node.field? name = some value) : node.field name = value :=
  (field?_eq_some_iff.mp found).1

theorem field?_node {child : Node} (held : node.field name = .node child) :
    node.field? name = some (.node child) :=
  field?_eq_some_iff.mpr ⟨held, rfl⟩

theorem optionalItems_eq_ok {items : List Value} (listed : node.optionalItems name = .ok items) :
    items = [] ∨ (node.field name).items = .ok items := by
  unfold optionalItems at listed
  split at listed
  · exact .inr listed
  · cases listed
    exact .inl rfl

theorem optionalItems_of_null (nothing : node.field name = .null) :
    node.optionalItems name = .ok [] := by
  unfold optionalItems flag
  rw [nothing]
  rfl

theorem optionalItems_of_list {items : List Value} (listed : node.field name = .list items) :
    node.optionalItems name = .ok items := by
  unfold optionalItems flag
  rw [listed]
  cases items <;> rfl

/-! ## Overridden fields -/

theorem lookup_setField_self (name : String) (value : Value) (fields : List (String × Value)) :
    (setField name value fields).lookup name = some value := by
  induction fields with
  | nil => simp [setField]
  | cons entry rest ih =>
      obtain ⟨known, old⟩ := entry
      by_cases same : known = name
      · simp [setField, same]
      · have differs : (name == known) = false := beq_eq_false_iff_ne.mpr (Ne.symm same)
        simp [setField, same, List.lookup_cons, differs, ih]

theorem lookup_setField_of_ne {name other : String} (different : other ≠ name) (value : Value)
    (fields : List (String × Value)) :
    (setField name value fields).lookup other = fields.lookup other := by
  have differs : (other == name) = false := beq_eq_false_iff_ne.mpr different
  induction fields with
  | nil => simp [setField, List.lookup_cons, differs]
  | cons entry rest ih =>
      obtain ⟨known, old⟩ := entry
      by_cases same : known = name
      · simp [setField, same, List.lookup_cons, differs]
      · simp [setField, same, List.lookup_cons, ih]

end Node

/-! ## Copies -/

namespace Rule

@[simp]
theorem asCall_kind (construction : Node) : (asCall construction).kind = "CallExpression" := rfl

@[simp]
theorem asCall_origin (construction : Node) : (asCall construction).origin = construction.origin :=
  rfl

@[simp]
theorem asDeclaration_origin (function : Node) (name : String) :
    (asDeclaration function name).origin = function.origin := rfl

theorem asDeclaration_id (function : Node) (name : String) :
    (asDeclaration function name).field "id" =
      .node ⟨function.origin, "Identifier", [("name", .text name)], none⟩ :=
  congrArg (·.getD Value.null) (Node.lookup_setField_self "id" _ function.fields)

/-- A declaration has the fields of its function, apart from the name. -/
theorem asDeclaration_field {field : String} (different : field ≠ "id") (function : Node)
    (name : String) : (asDeclaration function name).field field = function.field field :=
  congrArg (·.getD Value.null) (Node.lookup_setField_of_ne different _ function.fields)

theorem defaultAssignment_field (function : Node) (target default : Value) (field : String) :
    (defaultAssignment function target default).field field =
      if field = "operator" then .text "="
      else if field = "left" then target
      else if field = "right" then default
      else .null := by
  unfold defaultAssignment Node.field
  by_cases operator : field = "operator"
  · subst operator
    rfl
  · by_cases left : field = "left"
    · subst left
      rfl
    · by_cases right : field = "right"
      · subst right
        rfl
      · simp [List.lookup_cons, beq_eq_false_iff_ne.mpr operator, beq_eq_false_iff_ne.mpr left,
          beq_eq_false_iff_ne.mpr right, operator, left, right]

theorem methodFunction_eq_ok {value : Value} {function : Node}
    (found : methodFunction value = .ok function) : value = .node function := by
  unfold methodFunction at found
  split at found
  · cases found
  · exact Value.asNode_eq_ok found

end Rule

end PhpRendering
