import PhpRendering.Proofs.Replacement
import PhpRendering.Proofs.Standing

/-!
# Routes from nodes to what they render

What a node has rendered for a source stands at the end of a route from the node, or is
made of what stands there. When something is replaced at the end of a way through the
tree, the value of a source beside the way stays as it is, and the value of the source
that the way leads into is filled.
-/

namespace PhpRendering

/-! ## Routes of sources -/

/-- The steps from a node to what it has rendered for a source, the first step first. The
assignment for a parameter is made of two values. -/
def Source.routes : Source → List (List Step)
  | .copy => [[]]
  | .field name => [[.member name]]
  | .item name index => [[.member name, .item index]]
  | .receiver => [[.member "callee", .member "object"]]
  | .declarator index => [[.member "init", .member "declarations", .item index]]
  | .method => [[.member "value"]]
  | .pattern index =>
      [[.member "params", .item index, .member "left"],
        [.member "params", .item index, .member "right"]]
  | .defaulted index => [[.member "params", .item index], [.member "defaults", .item index]]

def WaysPart (route path : List Step) : Prop :=
  ¬ route <+: path ∧ ¬ path <+: route

/-- What stands where another way leads is not changed. -/
theorem WaysPart.at_put {route path : List Step} (part : WaysPart route path) (new value : Value) :
    (Value.put new path value).at route = value.at route :=
  Value.at_put_of_apart new value part.1 part.2

theorem Source.regions_eq (source : Source) :
    source.regions ⟨0, []⟩ = source.routes.map fun route => ⟨0, route.reverse⟩ := by
  cases source <;> rfl

/-- The routes of sources that are apart part. -/
theorem Source.Apart.waysPart {first second : Source} (apart : first.Apart second)
    {route other : List Step} (listed : route ∈ first.routes) (listedToo : other ∈ second.routes) :
    WaysPart route other := by
  have regions := apart ⟨0, []⟩ ⟨0, route.reverse⟩ (by
    rw [first.regions_eq]
    exact List.mem_map_of_mem listed) ⟨0, other.reverse⟩ (by
    rw [second.regions_eq]
    exact List.mem_map_of_mem listedToo)
  constructor
  · exact fun starts => regions.2 ⟨rfl, List.reverse_suffix.mpr starts⟩
  · exact fun starts => regions.1 ⟨rfl, List.reverse_suffix.mpr starts⟩

/-- Whether some steps from a node lead into what it has rendered for a source, and the
steps that lead on from there. The name of a declaration made of a function is its own. -/
inductive Source.Leads : Source → List Step → List Step → Prop where
  | copy {name : String} (plain : name ≠ "id") (rest : List Step) :
      Leads .copy (.member name :: rest) (.member name :: rest)
  | field (name : String) (rest : List Step) : Leads (.field name) (.member name :: rest) rest
  | item (name : String) (index : Nat) (rest : List Step) :
      Leads (.item name index) (.member name :: .item index :: rest) rest
  | receiver (rest : List Step) :
      Leads .receiver (.member "callee" :: .member "object" :: rest) rest
  | declarator (index : Nat) (rest : List Step) :
      Leads (.declarator index)
        (.member "init" :: .member "declarations" :: .item index :: rest) rest
  | method {name : String} (plain : name ≠ "id") (rest : List Step) :
      Leads .method (.member "value" :: .member name :: rest) (.member name :: rest)
  | left (index : Nat) (rest : List Step) :
      Leads (.pattern index) (.member "params" :: .item index :: .member "left" :: rest)
        (.member "left" :: rest)
  | right (index : Nat) (rest : List Step) :
      Leads (.pattern index) (.member "params" :: .item index :: .member "right" :: rest)
        (.member "right" :: rest)
  | param (index : Nat) (rest : List Step) :
      Leads (.defaulted index) (.member "params" :: .item index :: rest) (.member "left" :: rest)
  | default (index : Nat) (rest : List Step) :
      Leads (.defaulted index) (.member "defaults" :: .item index :: rest) (.member "right" :: rest)

namespace Source.Leads

variable {source other : Source} {path rest : List Step}

/-- Steps that lead into a source start with one of its routes. -/
theorem route (leads : source.Leads path rest) : ∃ own ∈ source.routes, own <+: path := by
  cases leads with
  | copy plain rest => exact ⟨_, List.mem_singleton_self _, List.nil_prefix⟩
  | field name rest => exact ⟨_, List.mem_singleton_self _, rest, rfl⟩
  | item name index rest => exact ⟨_, List.mem_singleton_self _, rest, rfl⟩
  | receiver rest => exact ⟨_, List.mem_singleton_self _, rest, rfl⟩
  | declarator index rest => exact ⟨_, List.mem_singleton_self _, rest, rfl⟩
  | @method name plain rest => exact ⟨_, List.mem_singleton_self _, .member name :: rest, rfl⟩
  | left index rest => exact ⟨_, List.mem_cons_self .., rest, rfl⟩
  | right index rest => exact ⟨_, List.mem_cons_of_mem _ (List.mem_singleton_self _), rest, rfl⟩
  | param index rest => exact ⟨_, List.mem_cons_self .., rest, rfl⟩
  | default index rest => exact ⟨_, List.mem_cons_of_mem _ (List.mem_singleton_self _), rest, rfl⟩

/-- Steps that lead into a source part from the routes of the sources beside it. -/
theorem waysPart (leads : source.Leads path rest) (apart : other.Apart source) {route : List Step}
    (listed : route ∈ other.routes) : WaysPart route path := by
  obtain ⟨own, listedOwn, starts⟩ := leads.route
  have part := apart.waysPart listed listedOwn
  constructor
  · intro before
    exact (List.prefix_or_prefix_of_prefix before starts).elim part.1 part.2
  · exact fun behind => part.2 (starts.trans behind)

end Source.Leads

/-! ## Values of sources -/

def Source.valueAt (options : Options) (node : Node) : Source → Value
  | .copy =>
      .node (if node.kind = "NewExpression" then Rule.asCall node
        else Rule.asDeclaration node (node.field "id").name)
  | .field name => (Value.node node).at [.member name]
  | .item name index => (Value.node node).at [.member name, .item index]
  | .receiver => (Value.node node).at [.member "callee", .member "object"]
  | .declarator index =>
      (Value.node node).at [.member "init", .member "declarations", .item index]
  | .method =>
      match (Value.node node).at [.member "value"] with
      | .node function =>
          .node (Rule.asDeclaration function
            (Naming.methodName options.constructorName (node.field "key").name))
      | other => other
  | .pattern index =>
      .node (Rule.defaultAssignment node
        ((Value.node node).at [.member "params", .item index, .member "left"])
        ((Value.node node).at [.member "params", .item index, .member "right"]))
  | .defaulted index =>
      .node (Rule.defaultAssignment node ((Value.node node).at [.member "params", .item index])
        ((Value.node node).at [.member "defaults", .item index]))

section Values

variable {options : Options} {node : Node} {position place : Position} {source : Source}

/-- An item of a list in a field. -/
theorem Value.at_item {name : String} {items : List Value} {index : Nat} {item : Value}
    (listed : node.field name = .list items) (held : items[index]? = some item) :
    (Value.node node).at [.member name, .item index] = item := by
  change (node.field name).down (.item index) = item
  rw [listed]
  change items.getD index .null = item
  rw [List.getD_eq_getElem?_getD, held]
  rfl

/-- A value that is no text and has something at a position is a list. -/
theorem Value.list_of_itemAt {value item : Value} {index : Nat}
    (given : value.itemAt index = .ok item) (something : item.isNull = false) (plain : value.text? = none) :
    ∃ items, value = .list items ∧ items[index]? = some item := by
  obtain ⟨items, listed, held⟩ := Value.getElem?_of_itemAt given something
  cases value with
  | list known =>
      cases listed
      exact ⟨items, rfl, held⟩
  | scalar scalar =>
      cases scalar with
      | text letters => cases plain
      | _ => cases listed
  | record members =>
      change (if index < members.length then Except.error Crash.noSuchPosition
        else .ok Value.null) = _ at given
      split at given
      · cases given
      · cases given
        cases something
  | foreign origin => cases listed
  | node node => cases listed

theorem Source.valueAt_method {function : Node} (held : node.field "value" = .node function) :
    Source.method.valueAt options node =
      .node (Rule.asDeclaration function
        (Naming.methodName options.constructorName (node.field "key").name)) := by
  have there : (Value.node node).at [.member "value"] = .node function := held
  unfold Source.valueAt
  rw [there]

/-- A method renders the function that it holds as a declaration, and nothing else. -/
theorem Part.visit_of_method :
    ∀ task ∈ Part.method.tasks options node position, ∀ {source child place},
      task = .visit source (.node child) place →
        source = .method ∧ .node child = Source.method.valueAt options node := by
  refine Task.forall_needed (fun _ _ _ _ same => nomatch same) fun key foundKey => ?_
  refine Task.forall_needed (fun _ _ _ _ same => nomatch same) fun value found => ?_
  unfold Task.unlessUnsupported
  split
  · exact List.forall_mem_singleton.mpr fun same => nomatch same
  · refine Task.forall_shaped (fun _ _ _ _ _ same => nomatch same) fun function held => ?_
    refine List.forall_mem_singleton.mpr fun same => ?_
    cases same
    have function_eq : node.field "value" = .node function :=
      (Node.field_of_field? found).trans (Rule.methodFunction_eq_ok held)
    exact ⟨rfl, by rw [Source.valueAt_method function_eq, Node.field_of_field? foundKey]⟩

/-- Only methods read a function. -/
theorem Part.eq_method {part : Part} {field : String} {shape : Shape}
    (read : ⟨field, shape, .function⟩ ∈ part.readings) : part = .method := by
  cases part with
  | method => rfl
  | _ => simp [Part.readings] at read

/-- Only declarations of functions render parameters. -/
theorem Construct.eq_functionDeclaration_of_parameters {construct : Construct}
    (listed : .parameters ∈ construct.parts) : construct = .functionDeclaration := by
  revert listed
  cases construct <;> decide

/-- What a node has rendered is what stands at the source. A text has its letters as items,
and these could be taken for defaults. -/
theorem Construct.valueAt_eq {construct : Construct}
    (known : Construct.ofKind? node.kind = some construct)
    (defaults : construct = .functionDeclaration → (node.field "defaults").text? = none)
    {child : Node} (held : .visit source (.node child) place ∈ construct.tasks options node position) :
    source.valueAt options node = .node child := by
  obtain ⟨part, listed, among⟩ := List.mem_flatMap.mp held
  have provided : source.Provides node part (.node child) :=
    part.tasks_provided options node position _ among
  cases provided with
  | call read =>
      subst read
      obtain rfl := Construct.eq_construction listed
      have kind : node.kind = "NewExpression" := Construct.kind_eq known (by decide)
      exact congrArg Value.node (if_pos kind)
  | declaration read name =>
      subst read
      obtain rfl := Construct.eq_functionExpression listed
      have kind : node.kind = "FunctionExpression" := Construct.kind_eq known (by decide)
      have value := (Task.visit.inj (List.mem_singleton.mp among)).2.1
      rw [value]
      refine congrArg Value.node (if_neg ?_)
      rw [kind]
      decide
  | field listed single found direct => exact Node.field_of_field? found
  | item listed several list at_index rendered =>
      have inside := List.mem_of_getElem? at_index
      exact Value.at_item (Value.eq_list_of_items list inside) at_index
  | @receiver use callee value listed callee_eq role found =>
      change (node.field "callee").down (.member "object") = _
      rw [callee_eq]
      exact Node.field_of_field? found
  | @declarator start items index value listed start_eq kind declared at_index =>
      have inside := List.mem_of_getElem? at_index
      have list := Value.eq_list_of_items declared inside
      change ((node.field "init").down (.member "declarations")).down (.item index) = _
      rw [start_eq]
      exact Value.at_item list at_index
  | method read function_eq name =>
      obtain rfl := Part.eq_method read
      exact (Part.visit_of_method _ among rfl).2.symm
  | @pattern items index param target default read params at_index kind left right =>
      have inside := List.mem_of_getElem? at_index
      have list := Value.eq_list_of_items params inside
      have param_eq := Value.at_item list at_index
      have side (name : String) :
          (Value.node node).at [.member "params", .item index, .member name] = param.field name :=
        congrArg (Value.down · (.member name)) param_eq
      change Value.node (Rule.defaultAssignment node _ _) = _
      rw [side, side, Node.field_of_field? left, Node.field_of_field? right]
  | @defaulted items index param default read params at_index kind listedDefaults given something =>
      have inside := List.mem_of_getElem? at_index
      have list := Value.eq_list_of_items params inside
      have param_eq := Value.at_item list at_index
      have own : part = .parameters := by
        cases part with
        | parameters => rfl
        | declaration => cases List.mem_singleton.mp among
        | parameterTexts => cases Task.visit_mem_wanting_iff.mp among
        | _ => simp [Part.readings] at read
      subst own
      have plain := defaults (Construct.eq_functionDeclaration_of_parameters listed)
      obtain ⟨others, list_eq, at_default⟩ := Value.list_of_itemAt given something plain
      have default_eq := Value.at_item list_eq at_default
      change Value.node (Rule.defaultAssignment node _ _) = _
      rw [param_eq, default_eq]

end Values

/-! ## Copies of filled nodes -/

/-- Fields are set in any order, when one of them is there. -/
theorem Node.setField_comm {name other : String} (different : name ≠ other) (value valueToo : Value)
    {fields : List (String × Value)} (something : fields.lookup other ≠ none) :
    setField name value (setField other valueToo fields) =
      setField other valueToo (setField name value fields) := by
  induction fields with
  | nil => exact absurd rfl something
  | cons entry rest ih =>
      obtain ⟨known, old⟩ := entry
      by_cases isOther : known = other
      · subst isOther
        simp [setField, different.symm]
      · by_cases isName : known = name
        · subst isName
          simp [setField, isOther]
        · have later : rest.lookup other ≠ none := by
            rw [List.lookup_cons, beq_eq_false_iff_ne.mpr (Ne.symm isOther)] at something
            exact something
          simp [setField, isOther, isName, ih later]

/-- A field that is set twice has the second value. -/
theorem Node.setField_setField (name : String) (value valueToo : Value)
    (fields : List (String × Value)) :
    setField name value (setField name valueToo fields) = setField name value fields := by
  induction fields with
  | nil => simp [setField]
  | cons entry rest ih =>
      obtain ⟨known, old⟩ := entry
      by_cases same : known = name
      · simp [setField, same]
      · simp [setField, same, ih]

theorem Node.put_eq (new : Value) (name : String) (rest : List Step) (node : Node) :
    node.put new name rest =
      ⟨node.origin, node.kind, setField name (Value.put new rest (node.field name)) node.fields,
        node.location⟩ := rfl

namespace Rule

open Node (setField setField_comm)

variable {new : Value} {name : String} {rest : List Step}

theorem asDeclaration_eq (function : Node) (given : String) :
    asDeclaration function given =
      ⟨function.origin, "FunctionDeclaration",
        setField "id" (.node ⟨function.origin, "Identifier", [("name", .text given)], none⟩)
          function.fields, function.location⟩ := rfl

/-- A declaration takes nothing of the name of the function. -/
theorem asDeclaration_put_id (function : Node) (given : String) :
    asDeclaration (function.put new "id" rest) given = asDeclaration function given := by
  rw [Node.put_eq, asDeclaration_eq, asDeclaration_eq]
  exact congrArg (Node.mk _ _ · _) (Node.setField_setField ..)

theorem asDeclaration_asDeclaration (function : Node) (given name : String) :
    asDeclaration (asDeclaration function given) name = asDeclaration function name := by
  rw [asDeclaration_eq, asDeclaration_eq, asDeclaration_eq]
  exact congrArg (Node.mk _ _ · _) (Node.setField_setField ..)

/-- A declaration made of a filled function is the filled declaration. -/
theorem asDeclaration_put {function : Node} (plain : name ≠ "id")
    (something : function.field name ≠ .null) (given : String) :
    asDeclaration (function.put new name rest) given =
      (asDeclaration function given).put new name rest := by
  have present : function.fields.lookup name ≠ none := by
    intro absent
    refine something ?_
    unfold Node.field
    rw [absent]
    rfl
  rw [Node.put_eq, Node.put_eq, asDeclaration_field plain, asDeclaration_eq, asDeclaration_eq]
  exact congrArg (Node.mk _ _ · _) (setField_comm plain.symm _ _ present)

theorem defaultAssignment_put_left (function : Node) (target default : Value) :
    defaultAssignment function (Value.put new rest target) default =
      (defaultAssignment function target default).put new "left" rest := by
  have held : (defaultAssignment function target default).field "left" = target := rfl
  unfold Node.put
  rw [held]
  rfl

theorem defaultAssignment_put_right (function : Node) (target default : Value) :
    defaultAssignment function target (Value.put new rest default) =
      (defaultAssignment function target default).put new "right" rest := by
  have held : (defaultAssignment function target default).field "right" = default := rfl
  unfold Node.put
  rw [held]
  rfl

end Rule

/-! ## Filled sources -/

theorem LeadsToStatement.ne_nil {path : List Step} (leads : LeadsToStatement path) : path ≠ [] := by
  cases leads <;> simp

/-- What leads to a statement leads there from any field but those with statements. -/
theorem LeadsToStatement.of_member {name : String} {rest : List Step}
    (leads : LeadsToStatement (.member name :: rest)) (plain : name ∉ statementFields) :
    LeadsToStatement rest := by
  cases leads with
  | statement listed index => exact absurd listed plain
  | member other deeper => exact deeper

namespace Source

variable {options : Options} {source : Source} {node inner : Node} {new : Value} {name : String}
  {path more rest : List Step}

/-- What is rendered for a source beside the way is not changed. -/
theorem valueAt_put_of_waysPart
    (part : ∀ route ∈ source.routes, WaysPart route (.member name :: more))
    (real : source ≠ .copy) (plain : source ≠ .method) :
    source.valueAt options (node.put new name more) = source.valueAt options node := by
  have same {route : List Step} (listed : route ∈ source.routes) :
      (Value.node (node.put new name more)).at route = (Value.node node).at route :=
    (part route listed).at_put new (.node node)
  cases source with
  | copy => exact absurd rfl real
  | method => exact absurd rfl plain
  | field field => exact same (List.mem_singleton_self _)
  | item field index => exact same (List.mem_singleton_self _)
  | receiver => exact same (List.mem_singleton_self _)
  | declarator index => exact same (List.mem_singleton_self _)
  | pattern index =>
      have first := same (List.mem_cons_self ..)
      have second := same (List.mem_cons_of_mem _ (List.mem_singleton_self _))
      simp only [valueAt, first, second]
      rfl
  | defaulted index =>
      have first := same (List.mem_cons_self ..)
      have second := same (List.mem_cons_of_mem _ (List.mem_singleton_self _))
      simp only [valueAt, first, second]
      rfl

/-- A way that leads on to a statement does not end where the source stands. -/
theorem Leads.not_mem_routes (leads : source.Leads path rest) (statement : LeadsToStatement rest) :
    path ∉ source.routes := by
  have side {side : String} {rest : List Step} (statement : LeadsToStatement (.member side :: rest))
      (plain : side ∉ statementFields) : rest ≠ [] := (statement.of_member plain).ne_nil
  cases leads with
  | copy plain rest => simp [routes]
  | field name rest => simp [routes, statement.ne_nil]
  | item name index rest => simp [routes, statement.ne_nil]
  | receiver rest => simp [routes, statement.ne_nil]
  | declarator index rest => simp [routes, statement.ne_nil]
  | method plain rest => simp [routes]
  | left index rest => simp [routes, side statement (by decide)]
  | right index rest => simp [routes, side statement (by decide)]
  | param index rest => simp [routes, side statement (by decide)]
  | default index rest => simp [routes, side statement (by decide)]

/-- The value of the source that the way leads into is changed at the end of the way, unless
the way ends where the source stands. -/
theorem Leads.valueAt_put (leads : source.Leads (.member name :: more) rest)
    (beyond : .member name :: more ∉ source.routes) (value : source.valueAt options node = .node inner)
    (present : ∀ first later, rest = .member first :: later → inner.field first ≠ .null) :
    source.valueAt options (node.put new name more) = Value.put new rest (.node inner) := by
  have filled (route : List Step) (listed : route ∈ source.routes) {rest : List Step}
      (way : route ++ rest = .member name :: more) :
      (Value.node (node.put new name more)).at route =
        Value.put new rest ((Value.node node).at route) := by
    have deeper : rest ≠ [] := by
      rintro rfl
      rw [List.append_nil] at way
      exact beyond (way ▸ listed)
    have put := @Value.at_put_append new rest route (.node node) deeper
    rwa [way] at put
  have beside (route : List Step) (part : WaysPart route (.member name :: more)) :
      (Value.node (node.put new name more)).at route = (Value.node node).at route :=
    part.at_put new (.node node)
  cases leads with
  | copy plain rest =>
      have something := present _ _ rfl
      have id : (node.put new name more).field "id" = node.field "id" :=
        beside [.member "id"] (by simp [WaysPart, List.cons_prefix_cons, plain, plain.symm])
      change Value.node (if node.kind = "NewExpression" then _ else _) = _ at value ⊢
      by_cases construction : node.kind = "NewExpression"
      · rw [if_pos construction] at value ⊢
        cases value
        rfl
      · rw [if_neg construction] at value ⊢
        cases value
        rw [Rule.asDeclaration_field plain] at something
        rw [id, Rule.asDeclaration_put plain something]
        rfl
  | field name rest =>
      rw [← value]
      exact filled [_] (List.mem_singleton_self _) rfl
  | item name index rest =>
      rw [← value]
      exact filled [_, _] (List.mem_singleton_self _) rfl
  | receiver rest =>
      rw [← value]
      exact filled [_, _] (List.mem_singleton_self _) rfl
  | declarator index rest =>
      rw [← value]
      exact filled [_, _, _] (List.mem_singleton_self _) rfl
  | @method name plain rest =>
      have something := present _ _ rfl
      have key := beside [.member "key"] (by simp [WaysPart, List.cons_prefix_cons])
      have function := filled [.member "value"] (List.mem_singleton_self _) rfl
      change (Node.put ..).field "key" = node.field "key" at key
      simp only [valueAt, function, key] at value ⊢
      generalize (Value.node node).at [.member "value"] = held at value ⊢
      cases held with
      | node function =>
          cases value
          rw [Rule.asDeclaration_field plain] at something
          exact congrArg Value.node (Rule.asDeclaration_put plain something _)
      | _ => cases value
  | left index rest =>
      have target := filled [_, _, .member "left"] (List.mem_cons_self ..) rfl
      have default := beside [.member "params", .item index, .member "right"]
        (by simp [WaysPart, List.cons_prefix_cons])
      simp only [valueAt, target, default] at value ⊢
      cases value
      exact congrArg Value.node (Rule.defaultAssignment_put_left ..)
  | right index rest =>
      have target := beside [.member "params", .item index, .member "left"]
        (by simp [WaysPart, List.cons_prefix_cons])
      have default := filled [_, _, .member "right"]
        (List.mem_cons_of_mem _ (List.mem_singleton_self _)) rfl
      simp only [valueAt, target, default] at value ⊢
      cases value
      exact congrArg Value.node (Rule.defaultAssignment_put_right ..)
  | param index rest =>
      have target := filled [.member "params", .item index] (List.mem_cons_self ..) rfl
      have default := beside [.member "defaults", .item index]
        (by simp [WaysPart, List.cons_prefix_cons])
      simp only [valueAt, target, default] at value ⊢
      cases value
      exact congrArg Value.node (Rule.defaultAssignment_put_left ..)
  | default index rest =>
      have target := beside [.member "params", .item index]
        (by simp [WaysPart, List.cons_prefix_cons])
      have default := filled [.member "defaults", .item index]
        (List.mem_cons_of_mem _ (List.mem_singleton_self _)) rfl
      simp only [valueAt, target, default] at value ⊢
      cases value
      exact congrArg Value.node (Rule.defaultAssignment_put_right ..)

end Source

end PhpRendering
