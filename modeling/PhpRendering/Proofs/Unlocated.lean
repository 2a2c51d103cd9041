import PhpRendering.Proofs.Fields
import PhpRendering.Proofs.Layout
import PhpRendering.Scope.Basic

/-!
# Trees without locations

A tree without its locations has the same nodes at the same places, and all that a rule
reads of a node is the same, apart from the line that a diagnostic names. What is made of
a tree is made of the tree without locations in the same way.
-/

namespace PhpRendering

mutual

def Value.unlocated : Value → Value
  | .node node => .node node.unlocated
  | .list items => .list (unlocatedItems items)
  | .record members => .record (unlocatedMembers members)
  | .scalar value => .scalar value
  | .foreign origin => .foreign origin

def Node.unlocated : Node → Node
  | ⟨origin, kind, fields, _⟩ => ⟨origin, kind, unlocatedMembers fields, none⟩

def unlocatedItems : List Value → List Value
  | [] => []
  | item :: rest => item.unlocated :: unlocatedItems rest

def unlocatedMembers : List (String × Value) → List (String × Value)
  | [] => []
  | (name, value) :: rest => (name, value.unlocated) :: unlocatedMembers rest

end

theorem unlocatedItems_eq (items : List Value) : unlocatedItems items = items.map .unlocated := by
  induction items with
  | nil => rfl
  | cons item rest ih => rw [unlocatedItems, ih, List.map_cons]

theorem unlocatedMembers_eq (members : List (String × Value)) :
    unlocatedMembers members = members.map fun entry => (entry.1, entry.2.unlocated) := by
  induction members with
  | nil => rfl
  | cons entry rest ih => rw [unlocatedMembers, ih, List.map_cons]

/-! ## Values -/

namespace Value

variable (value : Value)

@[simp]
theorem unlocated_node (node : Node) : (Value.node node).unlocated = .node node.unlocated := rfl

@[simp]
theorem unlocated_scalar (scalar : Scalar) : (Value.scalar scalar).unlocated = .scalar scalar := rfl

@[simp]
theorem unlocated_list (items : List Value) :
    (Value.list items).unlocated = .list (items.map .unlocated) :=
  congrArg Value.list (unlocatedItems_eq items)

@[simp]
theorem unlocated_isNull : value.unlocated.isNull = value.isNull := by
  cases value <;> rfl

@[simp]
theorem unlocated_isTruthy : value.unlocated.isTruthy = value.isTruthy := by
  cases value with
  | list items => cases items <;> rfl
  | record members => cases members <;> rfl
  | _ => rfl

@[simp]
theorem unlocated_text? : value.unlocated.text? = value.text? := by
  cases value <;> rfl

@[simp]
theorem unlocated_node? : value.unlocated.node? = value.node?.map .unlocated := by
  cases value <;> rfl

@[simp]
theorem unlocated_asNode : value.unlocated.asNode = value.asNode.map .unlocated := by
  cases value <;> rfl

@[simp]
theorem unlocated_items : value.unlocated.items = value.items.map (List.map .unlocated) := by
  cases value with
  | list items => exact congrArg Except.ok (unlocatedItems_eq items)
  | scalar scalar =>
      cases scalar with
      | text spelled => simp [items, letters, Except.map, Function.comp_def]
      | _ => rfl
  | record members =>
      simp [Value.unlocated, unlocatedMembers_eq, items, Except.map, Function.comp_def]
  | _ => rfl

theorem unlocated_getD_null (items : List Value) (index : Nat) :
    (items.map .unlocated)[index]?.getD .null = (items[index]?.getD .null).unlocated := by
  rw [List.getElem?_map]
  cases items[index]? <;> rfl

@[simp]
theorem unlocated_itemAt (index : Nat) :
    value.unlocated.itemAt index = (value.itemAt index).map .unlocated := by
  cases value with
  | record members =>
      simp only [Value.unlocated, unlocatedMembers_eq, itemAt, List.length_map]
      split <;> rfl
  | list items =>
      rw [unlocated_list]
      exact congrArg Except.ok (unlocated_getD_null items index)
  | scalar scalar =>
      cases scalar with
      | text spelled =>
          have same := unlocated_getD_null
            (letters spelled) index
          simp only [letters, List.map_map] at same
          exact congrArg Except.ok same
      | _ => rfl
  | _ => rfl

@[simp]
theorem unlocated_substituteName : value.unlocated.substituteName = value.substituteName := by
  cases value with
  | list items => cases items <;> rfl
  | record members => cases members <;> rfl
  | _ => rfl

end Value

/-! ## Nodes -/

namespace Node

variable (node : Node) (name : String)

@[simp]
theorem unlocated_origin : node.unlocated.origin = node.origin := by
  cases node
  rfl

@[simp]
theorem unlocated_kind : node.unlocated.kind = node.kind := by
  cases node
  rfl

@[simp]
theorem unlocated_field : node.unlocated.field name = (node.field name).unlocated := by
  obtain ⟨origin, kind, fields, location⟩ := node
  simp only [unlocated, field]
  induction fields with
  | nil => rfl
  | cons entry rest ih =>
      obtain ⟨known, value⟩ := entry
      simp only [unlocatedMembers, List.lookup_cons]
      split
      · rfl
      · exact ih

@[simp]
theorem unlocated_field? : node.unlocated.field? name = (node.field? name).map .unlocated := by
  simp only [field?, unlocated_field, Value.unlocated_isNull]
  split <;> rfl

@[simp]
theorem unlocated_has : node.unlocated.has name = node.has name := by
  simp [has]

@[simp]
theorem unlocated_flag : node.unlocated.flag name = node.flag name := by
  simp [flag]

@[simp]
theorem unlocated_optionalItems :
    node.unlocated.optionalItems name = (node.optionalItems name).map (List.map .unlocated) := by
  simp only [optionalItems, unlocated_flag, unlocated_field, Value.unlocated_items]
  split <;> rfl

@[simp]
theorem unlocated_line : node.unlocated.line = .null := by
  cases node
  rfl

@[simp]
theorem unlocated_name : node.unlocated.name = node.name := by
  simp only [Node.name, unlocated_field, Value.unlocated_isNull]
  split <;> simp

@[simp]
theorem unlocated_accessedName : node.unlocated.accessedName = node.accessedName := by
  simp only [accessedName, unlocated_flag, unlocated_field]
  cases node.field "property" <;> simp [Value.unlocated]

end Node

namespace Value

variable (value : Value)

@[simp]
theorem unlocated_name : value.unlocated.name = value.name := by
  cases value with
  | node node => exact node.unlocated_name
  | _ => rfl

@[simp]
theorem unlocated_isStatic : value.unlocated.isStatic = value.isStatic := by
  simp [isStatic]

@[simp]
theorem unlocated_plainAccess? :
    value.unlocated.plainAccess? = value.plainAccess?.map (Prod.map .unlocated .unlocated) := by
  cases value with
  | node node =>
      simp only [Value.unlocated, plainAccess?, Node.unlocated_kind, Node.unlocated_flag,
        Node.unlocated_field?]
      split
      · cases node.field? "object" <;> cases node.field? "property" <;> rfl
      · rfl
  | _ => rfl

end Value

mutual

theorem Value.unlocated_shownInside (value : Value) :
    value.unlocated.shownInside = value.shownInside := by
  cases value with
  | node node => rw [Value.unlocated, Value.shownInside, Value.shownInside, node.unlocated_kind]
  | list items =>
      rw [Value.unlocated, Value.shownInside, Value.shownInside, unlocated_shownItems items]
  | record members =>
      rw [Value.unlocated, Value.shownInside, Value.shownInside, unlocated_shownMembers members]
  | scalar value => rfl
  | foreign origin => rfl

theorem unlocated_shownItems (items : List Value) :
    shownItems (unlocatedItems items) = shownItems items := by
  cases items with
  | nil => rfl
  | cons item rest =>
      rw [unlocatedItems, shownItems, shownItems, item.unlocated_shownInside,
        unlocated_shownItems rest]

theorem unlocated_shownMembers (members : List (String × Value)) :
    shownMembers (unlocatedMembers members) = shownMembers members := by
  cases members with
  | nil => rfl
  | cons entry rest =>
      obtain ⟨name, value⟩ := entry
      rw [unlocatedMembers, shownMembers, shownMembers, value.unlocated_shownInside,
        unlocated_shownMembers rest]

end

@[simp]
theorem Value.unlocated_shown (value : Value) : value.unlocated.shown = value.shown := by
  cases value with
  | scalar scalar => rfl
  | _ => exact Value.unlocated_shownInside _

/-! ## Forms -/

@[simp]
theorem Output.unlocated_form (value : Value) :
    (held value.unlocated).form = (held value).form := by
  have shown := value.unlocated_shown
  cases value with
  | list items => cases items <;> rfl
  | scalar scalar => rfl
  | foreign origin => rfl
  | record members => exact congrArg Form.object shown
  | node node => exact congrArg Form.object shown

@[simp]
theorem Form.unlocated_plus (form : Form) (operator : Value) :
    form.plus operator.unlocated = form.plus operator := by
  cases operator with
  | list items => cases form <;> cases items <;> rfl
  | _ => cases form <;> rfl

theorem Construct.unlocated_form (construct : Construct) (node : Node) (forms : String → Form) :
    construct.form node.unlocated forms = construct.form node forms := by
  cases construct with
  | literal =>
      simp only [Construct.form, Node.unlocated_field?]
      cases node.field? "raw" with
      | none => rfl
      | some raw => exact Output.unlocated_form raw
  | variableDeclarator => simp only [Construct.form, Node.unlocated_has]
  | update =>
      simp only [Construct.form, Node.unlocated_field?]
      cases node.field? "operator" with
      | none => rfl
      | some operator => simp only [Option.map_some, Form.unlocated_plus]
  | _ => rfl

mutual

theorem Value.unlocated_form (value : Value) : value.unlocated.form = value.form := by
  cases value with
  | node node => exact node.unlocated_form
  | _ => rfl

theorem Node.unlocated_form (node : Node) : node.unlocated.form = node.form := by
  obtain ⟨origin, kind, fields, location⟩ := node
  rw [Node.unlocated, Node.form, Node.form, unlocated_fieldForms fields]
  cases Construct.ofKind? kind with
  | none => rfl
  | some construct => exact construct.unlocated_form ⟨origin, kind, fields, location⟩ _

theorem unlocated_fieldForms (fields : List (String × Value)) :
    fieldForms (unlocatedMembers fields) = fieldForms fields := by
  cases fields with
  | nil => rfl
  | cons entry rest =>
      obtain ⟨name, value⟩ := entry
      rw [unlocatedMembers, fieldForms, fieldForms, value.unlocated_form,
        unlocated_fieldForms rest]

end

attribute [simp] Value.unlocated_form Node.unlocated_form

@[simp]
theorem Value.unlocated_itemsYieldText (value : Value) :
    value.unlocated.itemsYieldText = value.itemsYieldText := by
  cases value with
  | list items => simp [itemsYieldText, Function.comp_def]
  | _ => rfl

/-! ## Copies -/

namespace Rule

variable (node : Node)

@[simp]
theorem unlocated_asCall : (asCall node).unlocated = asCall node.unlocated := by
  cases node
  rfl

@[simp]
theorem unlocated_asDeclaration (name : String) :
    (asDeclaration node name).unlocated = asDeclaration node.unlocated name := by
  obtain ⟨origin, kind, fields, location⟩ := node
  simp only [asDeclaration, Node.replace, Node.unlocated, List.foldl_cons, List.foldl_nil]
  congr 1
  induction fields with
  | nil => rfl
  | cons entry rest ih =>
      obtain ⟨known, value⟩ := entry
      simp only [Node.setField, unlocatedMembers]
      split
      · rfl
      · rw [unlocatedMembers, ih]

@[simp]
theorem unlocated_defaultAssignment (target default : Value) :
    (defaultAssignment node target default).unlocated =
      defaultAssignment node.unlocated target.unlocated default.unlocated := by
  cases node
  rfl

@[simp]
theorem unlocated_defaults : defaults node.unlocated = (defaults node).unlocated := by
  simp only [defaults, Node.unlocated_flag, Node.unlocated_field]
  split <;> rfl

@[simp]
theorem unlocated_methodFunction (value : Value) :
    methodFunction value.unlocated = (methodFunction value).map .unlocated := by
  cases value with
  | scalar scalar => cases scalar <;> rfl
  | _ => rfl

@[simp]
theorem unlocated_unsupportedForm? : unsupportedForm? node.unlocated = unsupportedForm? node := by
  simp [unsupportedForm?]

@[simp]
theorem unlocated_literalText (value : Value) : literalText value.unlocated = literalText value := by
  have shown := value.unlocated_shown
  cases value with
  | scalar scalar => rfl
  | list items => exact shown
  | record members => exact shown
  | foreign origin => rfl
  | node node => exact shown

@[simp]
theorem unlocated_keySpelling (value : Value) : keySpelling value.unlocated = keySpelling value := by
  cases value <;> rfl

@[simp]
theorem unlocated_keyText : keyText node.unlocated = keyText node := by
  simp [keyText]

@[simp]
theorem unlocated_localBinding? :
    localBinding? node.unlocated = (localBinding? node).map .unlocated := by
  simp only [localBinding?, Node.unlocated_field, Node.unlocated_field?]
  cases node.field "name" <;> rfl

@[simp]
theorem unlocated_aliasClause (name : String) (binding : Option Value) :
    aliasClause name (binding.map .unlocated) = aliasClause name binding := by
  cases binding with
  | none => rfl
  | some binding => simp [aliasClause]

end Rule

@[simp]
theorem Node.unlocated_operandsYieldText (node : Node) :
    node.unlocated.operandsYieldText = node.operandsYieldText := by
  have object : node.unlocated.calledObject.form = node.calledObject.form := by
    simp only [calledObject, unlocated_field]
    cases node.field "callee" <;> simp [Value.unlocated]
  simp only [operandsYieldText, object, unlocated_field, Value.unlocated_itemsYieldText]

@[simp]
theorem Node.unlocated_parametersYieldText (node : Node) :
    node.unlocated.parametersYieldText = node.parametersYieldText := by
  simp only [parametersYieldText, unlocated_optionalItems, Rule.unlocated_defaults,
    Value.unlocated_itemAt]
  cases node.optionalItems "params" with
  | error crash => rfl
  | ok params =>
      simp only [Except.map, List.zipIdx_map, List.all_map]
      refine congrArg (List.all _) (funext fun entry => ?_)
      cases found : (Rule.defaults node).itemAt entry.2 <;> simp [found]

/-! ## Positions -/

def Missing.unlocated (missing : Missing) : Missing :=
  { missing with line := .null }

def ImportSource.unlocated : ImportSource → ImportSource
  | .unnamed missing => .unnamed missing.unlocated
  | source => source

def Position.unlocated (position : Position) : Position :=
  { position with importSource := position.importSource.unlocated }

@[simp]
theorem Node.unlocated_missing (node : Node) (name : String) :
    node.unlocated.missing name = (node.missing name).unlocated := by
  cases node
  rfl

@[simp]
theorem Node.unlocated_require (node : Node) (name : String) :
    node.unlocated.require name =
      match node.require name with
      | .ok value => .ok value.unlocated
      | .error missing => .error missing.unlocated := by
  simp only [require, unlocated_field?, unlocated_missing]
  cases node.field? name <;> rfl

@[simp]
theorem Node.unlocated_importSource (node : Node) :
    node.unlocated.importSource = node.importSource.unlocated := by
  simp only [importSource, unlocated_require]
  cases node.require "source" with
  | ok value => simp [ImportSource.unlocated]
  | error missing => rfl

@[simp]
theorem ImportSource.unlocated_moduleName (source : ImportSource) :
    source.unlocated.moduleName = source.moduleName := by
  cases source <;> rfl

@[simp]
theorem Node.unlocated_isSame (node : Node) (name other : String) :
    (node.unlocated.occurrence name).isSame (node.unlocated.occurrence other) =
      (node.occurrence name).isSame (node.occurrence other) := by
  simp only [occurrence, unlocated_field, unlocated_origin]
  cases node.field name <;> cases node.field other <;> simp [Value.unlocated, Occurrence.isSame]

namespace Position

@[simp]
theorem unlocated_within (node : Node) : within node.unlocated = (within node).unlocated := by
  simp [within, Position.unlocated]

@[simp]
theorem unlocated_of (node : Node) (field : String) :
    Position.of node.unlocated (node.unlocated.occurrence field) =
      (Position.of node (node.occurrence field)).unlocated := by
  simp only [Position.of, Node.unlocated_isSame, leftOf, unlocated_within, Node.unlocated_kind]
  split <;> rfl

@[simp]
theorem unlocated_checkParent (position : Position) :
    position.unlocated.checkParent = position.checkParent := rfl

end Position

@[simp]
theorem Rule.unlocated_objectPosition (node : Node) (object : Value) :
    objectPosition node.unlocated object.unlocated = (objectPosition node object).unlocated := by
  simp only [objectPosition, Position.unlocated_within, Value.unlocated_isStatic,
    Value.unlocated_plainAccess?, Option.map_map]
  congr 1
  refine congrArg (Option.map · object.plainAccess?) (funext fun pair => ?_)
  simp [Connective.between]

@[simp]
theorem Rule.unlocated_methodSubstitute? (options : Options) (callee : Node) :
    methodSubstitute? options callee.unlocated = methodSubstitute? options callee := by
  simp [methodSubstitute?]

@[simp]
theorem Rule.unlocated_propertySubstitute? (options : Options) (member : Node)
    (position : Position) :
    propertySubstitute? options member.unlocated position.unlocated =
      propertySubstitute? options member position := by
  simp only [propertySubstitute?, Node.unlocated_flag, Node.unlocated_accessedName,
    Position.unlocated_checkParent]
  rfl

end PhpRendering
