import PhpRendering.Proofs.Reading

/-!
# The tasks of a part

All that a part of a construct can ask for. It has a value rendered that its node provides,
in the place where the value belongs; it enters its own node; it reports a form that has no
rendering; or it stops, for a field that is missing or for a value of a shape that it
cannot use. Facts about the tasks of all rules are shown for these cases, so that the parts
are gone through once.
-/

namespace PhpRendering

/-! ## What is rendered, and where -/

inductive Source.Provides (node : Node) (part : Part) : Source → Value → Prop where
  | call (read : part = .construction) : Provides node part .copy (.node (Rule.asCall node))
  | declaration (read : part = .declaration) (name : String) :
      Provides node part .copy (.node (Rule.asDeclaration node name))
  | field {field : String} {shape : Shape} {use : Use} {value : Value}
      (listed : ⟨field, shape, use⟩ ∈ part.readings)
      (single : shape = .node ∨ shape = .nodeOrNodes ∧ ∀ items, value ≠ .list items)
      (found : node.field? field = some value) (direct : use = .rendered ∨ use = .called) :
      Provides node part (.field field) value
  | item {field : String} {shape : Shape} {use : Use} {items : List Value} {index : Nat}
      {value : Value} (listed : ⟨field, shape, use⟩ ∈ part.readings)
      (several : shape = .nodes ∨
        (shape = .holedNodes ∨ shape = .nodeOrNodes) ∧ value.isNull = false)
      (held : (node.field field).items = .ok items) (place : items[index]? = some value)
      (rendered : ∀ child, value = .node child →
        ∀ role ∈ Role.ofKind child.kind, role ∈ use.roles child) :
      Provides node part (.item field index) value
  | receiver {use : Use} {callee : Node} {value : Value}
      (listed : ⟨"callee", .node, use⟩ ∈ part.readings) (held : node.field "callee" = .node callee)
      (role : .receiver ∈ use.roles callee) (found : callee.field? "object" = some value) :
      Provides node part .receiver value
  | declarator {start : Node} {items : List Value} {index : Nat} {value : Value}
      (listed : ⟨"init", .node, .rendered⟩ ∈ part.readings) (held : node.field "init" = .node start)
      (kind : start.kind = "VariableDeclaration")
      (declared : (start.field "declarations").items = .ok items)
      (place : items[index]? = some value) : Provides node part (.declarator index) value
  | method {function : Node} (listed : ⟨"value", .node, .function⟩ ∈ part.readings)
      (held : node.field "value" = .node function) (name : String) :
      Provides node part .method (.node (Rule.asDeclaration function name))
  | pattern {items : List Value} {index : Nat} {param : Node} {target default : Value}
      (listed : ⟨"params", .nodes, .parameter⟩ ∈ part.readings)
      (held : (node.field "params").items = .ok items) (place : items[index]? = some (.node param))
      (kind : param.kind = "AssignmentPattern") (left : param.field? "left" = some target)
      (right : param.field? "right" = some default) :
      Provides node part (.pattern index) (.node (Rule.defaultAssignment node target default))
  | defaulted {items : List Value} {index : Nat} {param : Node} {default : Value}
      (listed : ⟨"params", .nodes, .parameter⟩ ∈ part.readings)
      (held : (node.field "params").items = .ok items) (place : items[index]? = some (.node param))
      (kind : param.kind ≠ "AssignmentPattern")
      (listedDefaults : ⟨"defaults", .holedNodes, .rendered⟩ ∈ part.readings)
      (given : (node.field "defaults").itemAt index = .ok default)
      (something : default.isNull = false) :
      Provides node part (.defaulted index)
        (.node (Rule.defaultAssignment node (.node param) default))

/-- A position below a parent, whatever the markers that the rule of the parent sets. -/
structure Position.IsBelow (parent : Node) (place : Position) : Prop where
  usable : place.parentIsUsable = true
  statement : place.inStatement = (parent.kind == "ExpressionStatement")
  source : place.importSource = parent.importSource

theorem Position.IsBelow.within (parent : Node) : IsBelow parent (Position.within parent) :=
  ⟨rfl, rfl, rfl⟩

/-- A place below a parent with given marks. Below an update every place is marked. -/
structure Position.IsMarked (parent : Node) (isCallee isLeft : Bool) (place : Position) : Prop where
  usable : place.parentIsUsable = true
  callee : place.isCallee = isCallee
  target : place.isTarget = (parent.kind == "UpdateExpression" ||
    (isLeft && parent.kind == "AssignmentExpression"))

theorem Position.isMarked_within (parent : Node) :
    (Position.within parent).IsMarked parent false false :=
  ⟨rfl, rfl, by simp [Position.within]⟩

/-- The left side is marked, also where it stands on the other side. -/
theorem Position.isMarked_of (parent : Node) (child : Occurrence) :
    (Position.of parent child).IsMarked parent false
      ((parent.occurrence "left").isSame child) := by
  unfold Position.of
  split
  · next same => exact ⟨rfl, rfl, by simp [Position.leftOf, same]⟩
  · next other =>
      rw [Bool.eq_false_iff.mpr other]
      exact Position.isMarked_within parent

theorem Position.isBelow_of (parent : Node) (child : Occurrence) :
    (Position.of parent child).IsBelow parent := by
  unfold Position.of
  split <;> exact ⟨rfl, rfl, rfl⟩

def Part.marksCallee (field : String) : Part → Bool
  | .call => field == "callee"
  | _ => false

def Part.marksLeft (node : Node) : Part → Bool
  | .side field => (node.occurrence "left").isSame (node.occurrence field)
  | _ => false

def Task.IsPlaced (options : Options) (node : Node) (position : Position) : Task → Prop
  | .visit .copy value place =>
      value = .node (Rule.asCall node) ∧ place = .within node ∨
        value = .node (Rule.asDeclaration node (node.field "id").name) ∧ place = position
  | .visit .method value place =>
      place = .within node ∧ ∃ function, value = .node (Rule.asDeclaration function
        (Naming.methodName options.constructorName (node.field "key").name))
  | .visit .receiver _ place =>
      ∃ callee, node.field "callee" = .node callee ∧ place = .within callee
  | .visit (.declarator _) _ place =>
      ∃ start, node.field "init" = .node start ∧ start.kind = "VariableDeclaration" ∧
        place = .within start
  | .visit _ _ place => place.IsBelow node
  | _ => True

def Task.IsMarked (node : Node) (part : Part) : Task → Prop
  | .visit (.field field) _ place => place.IsMarked node (part.marksCallee field) (part.marksLeft node)
  | .visit (.item _ _) _ place => place.IsMarked node false false
  | _ => True

/-! ## What a part needs, and what it cannot use -/

/-- The nodes that must hold a field for a part to be read to its end. -/
inductive Part.Needs (node : Node) (part : Part) : Node → String → Prop where
  | own (others : part ≠ .parameters) (field : String) : Needs node part node field
  | side {params : List Value} {pattern : Node} {field : String} (read : part = .parameters)
      (held : (node.field "params").items = .ok params) (listed : .node pattern ∈ params)
      (kind : pattern.kind = "AssignmentPattern") (side : field = "left" ∨ field = "right") :
      Needs node part pattern field
  | declarators {start : Node} (read : part = .loopStart) (held : node.field "init" = .node start)
      (kind : start.kind = "VariableDeclaration") : Needs node part start "declarations"
  | object {callee : Node} (read : part = .call ∨ part = .access)
      (held : node.field "callee" = .node callee) : Needs node part callee "object"

/-- The values that a part cannot use, with the crashes that come of them. -/
inductive Part.Crashes (options : Options) (node : Node) (position : Position) (part : Part) :
    Crash → Prop where
  | noText {source : Source} {value : Value} (provided : source.Provides node part value)
      (other : value.form.isText = false) : Crashes options node position part .notAName
  | mark {field : String} {value : Value} {crash : Crash} (read : part = .mark field)
      (found : node.field? field = some value)
      (failed : (node.field "argument").form.plus value = .error crash) :
      Crashes options node position part crash
  | key {key : Node} {crash : Crash} (read : part = .entryValue)
      (held : node.field "key" = .node key) (failed : Rule.keyText key = .error crash) :
      Crashes options node position part crash
  | single {field : String} {use : Use} {value : Value} {crash : Crash}
      (listed : ⟨field, .node, use⟩ ∈ part.readings) (found : node.field? field = some value)
      (failed : value.asNode = .error crash) : Crashes options node position part crash
  | several {field : String} {shape : Shape} {use : Use} {value : Value} {crash : Crash}
      (listed : ⟨field, shape, use⟩ ∈ part.readings) (plain : shape = .nodes ∨ shape = .holedNodes)
      (found : node.field? field = some value) (failed : value.items = .error crash) :
      Crashes options node position part crash
  | optional {field : String} {shape : Shape} {use : Use} {crash : Crash}
      (listed : ⟨field, shape, use⟩ ∈ part.readings) (plain : shape = .nodes ∨ shape = .holedNodes)
      (failed : node.optionalItems field = .error crash) :
      Crashes options node position part crash
  | callee {called : Node} {crash : Crash} (read : part = .call)
      (held : node.field "callee" = .node called)
      (failed : Rule.methodSubstitute? options called = .error crash) :
      Crashes options node position part crash
  | property {crash : Crash} (read : part = .access)
      (failed : Rule.propertySubstitute? options node position = .error crash) :
      Crashes options node position part crash
  | parent {crash : Crash} (read : part = .call) (failed : position.checkParent = .error crash) :
      Crashes options node position part crash
  | default {index : Nat} {crash : Crash} (read : part = .parameters)
      (failed : (Rule.defaults node).itemAt index = .error crash) :
      Crashes options node position part crash
  | param {params : List Value} {param : Value} {crash : Crash} (read : part = .parameters)
      (held : (node.field "params").items = .ok params) (listed : param ∈ params)
      (failed : param.asNode = .error crash) : Crashes options node position part crash
  | method {value : Value} {crash : Crash} (read : part = .method)
      (found : node.field? "value" = some value)
      (failed : Rule.methodFunction value = .error crash) :
      Crashes options node position part crash
  | declarators {start : Node} {value : Value} {crash : Crash} (read : part = .loopStart)
      (held : node.field "init" = .node start) (kind : start.kind = "VariableDeclaration")
      (found : start.field? "declarations" = some value) (failed : value.items = .error crash) :
      Crashes options node position part crash
  | source (read : part = .importedModule) (unusable : position.importSource = .unusable) :
      Crashes options node position part .notANode

inductive Part.Does (options : Options) (node : Node) (position : Position) (part : Part) :
    Task → Prop where
  | visit {source : Source} {value : Value} {place : Position}
      (provided : source.Provides node part value)
      (placed : (Task.visit source value place).IsPlaced options node position)
      (marked : (Task.visit source value place).IsMarked node part) :
      Does options node position part (.visit source value place)
  | enter (read : part = .entry) : Does options node position part (.enter node)
  | report {feature : String} (unsupported : Rule.unsupportedForm? node = some feature) :
      Does options node position part (.report (Diagnostic.unsupported node feature))
  | lacks {holder : Node} {field : String} (needs : part.Needs node holder field)
      (lacks : holder.field? field = none) :
      Does options node position part (.stop (.missing (holder.missing field)))
  | nameless (read : part = .name) (blank : node.name = "") :
      Does options node position part (.stop (.missing (node.missing "name")))
  | orphan (read : part = .importedModule) (alone : position.importSource = .noParent) :
      Does options node position part (.stop (.missing (node.missing "source")))
  | unnamed {missing : Missing} (read : part = .importedModule)
      (nameless : position.importSource = .unnamed missing) :
      Does options node position part (.stop (.missing missing))
  | crash {crash : Crash} (crashes : part.Crashes options node position crash) :
      Does options node position part (.stop (.crash crash))

/-- Only calls of member accesses have a substitute. -/
theorem Rule.kind_of_methodSubstitute? {options : Options} {callee : Node} {substitute : Substitute}
    (asked : Rule.methodSubstitute? options callee = .ok (some substitute)) :
    callee.kind = "MemberExpression" := by
  unfold Rule.methodSubstitute? at asked
  split at asked
  · next kind => exact kind
  · cases asked

namespace Task

variable {options : Options} {node : Node} {position : Position} {part : Part}

theorem needed_does {holder : Node} {field : String} {next : Value → List Task}
    (needs : part.Needs node holder field)
    (rest : ∀ value, holder.field? field = some value →
      ∀ task ∈ next value, part.Does options node position task) :
    ∀ task ∈ needed holder field next, part.Does options node position task :=
  forall_needed (fun lacks => .lacks needs lacks) rest

theorem required_does {field : String} {next : Value → List Task} (others : part ≠ .parameters)
    (rest : ∀ value, node.field? field = some value →
      ∀ task ∈ next value, part.Does options node position task) :
    ∀ task ∈ needed node field next, part.Does options node position task :=
  needed_does (.own others field) rest

theorem shaped_does {α : Type} {result : Except Crash α} {next : α → List Task}
    (crashes : ∀ crash, result = .error crash → part.Crashes options node position crash)
    (rest : ∀ found, result = .ok found →
      ∀ task ∈ next found, part.Does options node position task) :
    ∀ task ∈ shaped result next, part.Does options node position task :=
  forall_shaped (fun crash failed => .crash (crashes crash failed)) rest

theorem wanting_does {fits : Bool} {tasks : List Task}
    (crashes : fits = false → part.Crashes options node position .notAName)
    (rest : ∀ task ∈ tasks, part.Does options node position task) :
    ∀ task ∈ wanting fits tasks, part.Does options node position task :=
  forall_wanting (fun other => .crash (crashes other)) rest

theorem child_does {field : String} (listed : ⟨field, .node, .rendered⟩ ∈ part.readings)
    (unmarked : part.marksCallee field = false ∧ part.marksLeft node = false) {value : Value}
    (found : node.field? field = some value) :
    ∀ task ∈ child field (.within node) value, part.Does options node position task := by
  refine List.forall_mem_singleton.mpr
    (.visit (.field listed (.inl rfl) found (.inl rfl)) (Position.IsBelow.within node) ?_)
  simp only [IsMarked, unmarked.1, unmarked.2]
  exact Position.isMarked_within node

theorem text_does {field : String} (listed : ⟨field, .node, .rendered⟩ ∈ part.readings)
    (unmarked : part.marksCallee field = false ∧ part.marksLeft node = false) {value : Value}
    (found : node.field? field = some value) :
    ∀ task ∈ text field (.within node) value, part.Does options node position task :=
  wanting_does (fun other => .noText (.field listed (.inl rfl) found (.inl rfl)) other)
    (child_does listed unmarked found)

/-- A list one of whose items yields no text. -/
theorem noText_of_items {field : String} {shape : Shape}
    (listed : ⟨field, shape, .rendered⟩ ∈ part.readings)
    (several : shape = .nodes ∨ shape = .holedNodes ∨ shape = .nodeOrNodes)
    (other : (node.field field).itemsYieldText = false) :
    part.Crashes options node position .notAName := by
  obtain ⟨items, index, value, held, place, unfit⟩ := Value.exists_of_itemsYieldText other
  refine .noText (.item listed ?_ (held ▸ rfl) place fun _ _ _ role => role) unfit
  exact several.imp_right fun holed => ⟨holed, Value.isNull_of_form unfit⟩

/-- The items of a list, where holes are skipped or not expected, in places that may be
marked as the last one. -/
theorem items_does {field : String} {shape : Shape}
    (listed : ⟨field, shape, .rendered⟩ ∈ part.readings) {skips : Bool}
    (several : shape = .nodes ∨ (shape = .holedNodes ∨ shape = .nodeOrNodes) ∧ skips = true)
    {items : List Value} (held : items = [] ∨ (node.field field).items = .ok items)
    (last : Nat → Bool) :
    ∀ task ∈ Task.items (.item field)
        (fun index => { Position.within node with isLast := last index }) skips items,
      part.Does options node position task := by
  rcases held with rfl | held
  · exact List.forall_mem_nil _
  · refine forall_items fun index value place something =>
      .visit (.item listed ?_ held place fun _ _ _ role => role) ⟨rfl, rfl, rfl⟩
        ⟨rfl, rfl, (Position.isMarked_within node).target⟩
    rcases several with plain | ⟨holed, rfl⟩
    · exact .inl plain
    · exact .inr ⟨holed, something⟩

theorem optionalItems_does {field : String} {shape : Shape} {skips : Bool}
    (listed : ⟨field, shape, .rendered⟩ ∈ part.readings)
    (plain : shape = .nodes ∨ shape = .holedNodes ∧ skips = true) :
    ∀ task ∈ optionalItems node field skips, part.Does options node position task :=
  shaped_does (fun _ failed => .optional listed (plain.imp_right And.left) failed)
    fun _ found => items_does listed (plain.imp_right fun holed => ⟨.inl holed.1, holed.2⟩)
      (Node.optionalItems_eq_ok found) fun _ => false

theorem sequence_does {field : String} {shape : Shape}
    (listed : ⟨field, shape, .rendered⟩ ∈ part.readings)
    (holed : shape = .holedNodes ∨ shape = .nodeOrNodes) {list : Value}
    (crashes : ∀ crash, list.items = .error crash → part.Crashes options node position crash)
    (read : list = node.field field ∨ list = .list []) :
    ∀ task ∈ sequence node field list, part.Does options node position task := by
  refine wanting_does (fun other => ?_) (shaped_does crashes fun items found =>
    items_does listed (.inr ⟨holed, rfl⟩) ?_ _)
  · rcases read with rfl | rfl
    · exact noText_of_items listed (.inr holed) other
    · cases other
  · rcases read with rfl | rfl
    · exact .inr found
    · cases found
      exact .inl rfl

/-- The statements in a field that holds something. -/
theorem statements_does {field : String}
    (listed : ⟨field, .holedNodes, .rendered⟩ ∈ part.readings) {list : Value}
    (found : node.field? field = some list) :
    ∀ task ∈ sequence node field list, part.Does options node position task :=
  sequence_does listed (.inl rfl) (fun _ failed => .several listed (.inr rfl) found failed)
    (.inl (Node.field_of_field? found).symm)

theorem callReceiver_does {use : Use} (read : part = .call ∨ part = .access)
    (listed : ⟨"callee", .node, use⟩ ∈ part.readings)
    (role : ∀ callee, node.field "callee" = .node callee → .receiver ∈ use.roles callee) :
    ∀ task ∈ callReceiver node, part.Does options node position task := by
  have others : part ≠ .parameters := by rcases read with rfl | rfl <;> decide
  refine required_does others fun value found => ?_
  refine shaped_does (fun _ failed => .single listed found failed) fun callee same => ?_
  have held : node.field "callee" = .node callee :=
    (Node.field_of_field? found).trans (Value.asNode_eq_ok same)
  refine needed_does (.object read held) fun object inside => List.forall_mem_singleton.mpr ?_
  exact .visit (.receiver listed held (role callee held) inside) ⟨callee, held, rfl⟩ trivial

/-- A receiver or an argument that yields no text. -/
theorem noText_of_operands {use : Use} (read : part = .call ∨ part = .access)
    (listed : ⟨"callee", .node, use⟩ ∈ part.readings)
    (role : ∀ callee, node.field "callee" = .node callee → .receiver ∈ use.roles callee)
    (other : node.operandsYieldText = false) : part.Crashes options node position .notAName := by
  rcases Bool.and_eq_false_iff.mp other with receiver | arguments
  · unfold Node.calledObject at receiver
    split at receiver
    · next callee held =>
        have something := Value.isNull_of_form receiver
        exact .noText (.receiver listed held (role callee held)
          (Node.field?_eq_some_iff.mpr ⟨rfl, something⟩)) receiver
    · cases receiver
  · refine noText_of_items ?_ (.inl rfl) arguments
    rcases read with rfl | rfl <;> simp [Part.readings]

/-- A substitute renders the receiver, the arguments, or the object of its node. -/
theorem substituted_does {use : Use} (read : part = .call ∨ part = .access)
    (listed : ⟨"callee", .node, use⟩ ∈ part.readings)
    (role : ∀ callee, node.field "callee" = .node callee → .receiver ∈ use.roles callee)
    (substitute : Substitute) :
    ∀ task ∈ substituted node substitute, part.Does options node position task := by
  have receivers : ∀ task ∈ callReceiver node, part.Does options node position task :=
    callReceiver_does read listed role
  have operands : ∀ task ∈ arguments node, part.Does options node position task :=
    optionalItems_does (by rcases read with rfl | rfl <;> simp [Part.readings]) (.inl rfl)
  cases substitute with
  | receiverFirst function =>
      exact wanting_does (noText_of_operands read listed role)
        (List.forall_mem_append.mpr ⟨receivers, operands⟩)
  | receiverLast function =>
      exact wanting_does (noText_of_operands read listed role)
        (List.forall_mem_append.mpr ⟨operands, receivers⟩)
  | propertyFunction function =>
      have others : part ≠ .parameters := by rcases read with rfl | rfl <;> decide
      refine required_does others fun value found => child_does ?_ ?_ found
      · rcases read with rfl | rfl <;> simp [Part.readings]
      · rcases read with rfl | rfl <;> exact ⟨rfl, rfl⟩
  | charAt => exact List.forall_mem_append.mpr ⟨operands, receivers⟩
  | constant text => exact List.forall_mem_nil _

/-- The output of a callee is continued by the arguments, if it is a text or a list that
stands for itself. -/
theorem continued_does {callee : Value}
    (provided : Source.Provides node .call (.field "callee") callee) :
    ∀ task ∈ continued node position callee, Part.call.Does options node position task := by
  have listed : ⟨"arguments", .nodes, .rendered⟩ ∈ Part.call.readings := by decide
  have arguments : ∀ task ∈ wanting (node.field "arguments").itemsYieldText (arguments node),
      Part.call.Does options node position task :=
    wanting_does (noText_of_items listed (.inl rfl)) (optionalItems_does listed (.inl rfl))
  have parent (crash : Crash) (failed : position.checkParent = .error crash) :
      Part.call.Crashes options node position crash := .parent rfl failed
  unfold continued
  split
  · exact List.forall_mem_append.mpr
      ⟨arguments, shaped_does parent fun _ _ => List.forall_mem_nil _⟩
  · next other =>
      have stops : Part.call.Does options node position (.stop (.crash .notAName)) :=
        .crash (.noText provided (Bool.eq_false_iff.mpr other))
      split
      · refine List.forall_mem_append.mpr ⟨arguments, shaped_does parent fun _ _ => ?_⟩
        split
        · exact List.forall_mem_singleton.mpr stops
        · exact List.forall_mem_nil _
      · exact List.forall_mem_append.mpr ⟨arguments, List.forall_mem_singleton.mpr stops⟩

/-- A parameter that yields no text is rendered as it is. -/
theorem noText_of_parameters (other : node.parametersYieldText = false) :
    Part.parameterTexts.Crashes options node position .notAName := by
  unfold Node.parametersYieldText at other
  split at other
  · next params listed =>
      obtain ⟨entry, inside, unfit⟩ := List.all_eq_false.mp other
      have place := List.mem_zipIdx_iff_getElem?.mp inside
      have yields : entry.1.form.isText = false :=
        (Bool.or_eq_false_iff.mp (Bool.eq_false_iff.mpr unfit)).1
      have read : ⟨"params", .nodes, .parameter⟩ ∈ Part.parameterTexts.readings :=
        List.mem_singleton_self _
      rcases Node.optionalItems_eq_ok listed with rfl | held
      · cases place
      · refine .noText (.item read (.inl rfl) held place fun child same role known => ?_) yields
        have kind : child.kind ≠ "AssignmentPattern" := by
          intro pattern
          have unknown : Construct.ofKind? child.kind = none := by
            rw [pattern]
            rfl
          rw [same, Value.form, Node.form_of_unknown unknown] at yields
          cases yields
        simp only [Use.roles, if_neg kind]
        exact known
  · cases other

/-- A default that is there comes from the list of defaults. -/
theorem itemAt_of_defaults {index : Nat} {default : Value}
    (given : (Rule.defaults node).itemAt index = .ok default) (something : default.isNull = false) :
    (node.field "defaults").itemAt index = .ok default := by
  unfold Rule.defaults at given
  split at given
  · exact given
  · cases given
    cases something

theorem parameter_does {params : List Value} (held : (node.field "params").items = .ok params)
    {param : Value} {index : Nat} (place : params[index]? = some param) :
    ∀ task ∈ parameter node param index, Part.parameters.Does options node position task := by
  have inside := List.mem_of_getElem? place
  refine shaped_does (fun _ failed => .default rfl failed) fun default given => ?_
  refine shaped_does (fun _ failed => .param rfl held inside failed) fun found same => ?_
  rw [Value.asNode_eq_ok same] at place inside ⊢
  have below := Position.IsBelow.within node
  have params : ⟨"params", .nodes, .parameter⟩ ∈ Part.parameters.readings := by decide
  split
  · next kind =>
      refine needed_does (.side rfl held inside kind (.inl rfl)) fun target left => ?_
      refine needed_does (.side rfl held inside kind (.inr rfl)) fun default right => ?_
      exact List.forall_mem_singleton.mpr
        (.visit (.pattern params held place kind left right) below trivial)
  · next kind =>
      split
      · refine List.forall_mem_singleton.mpr
          (.visit (.item params (.inl rfl) held place ?_) below (Position.isMarked_within node))
        rintro child ⟨⟩ role known
        simp only [Use.roles, if_neg kind]
        exact known
      · next something =>
          have full := Bool.eq_false_iff.mpr something
          exact List.forall_mem_singleton.mpr
            (.visit (.defaulted params held place kind (by decide) (itemAt_of_defaults given full) full)
              below trivial)

theorem unlessUnsupported_does {next : List Task}
    (rest : ∀ task ∈ next, part.Does options node position task) :
    ∀ task ∈ unlessUnsupported node next, part.Does options node position task := by
  unfold unlessUnsupported
  split
  · next feature form => exact List.forall_mem_singleton.mpr (.report form)
  · exact rest

end Task

/-- A part has no other tasks. -/
theorem Part.tasks_do (options : Options) (node : Node) (position : Position) (part : Part) :
    ∀ task ∈ part.tasks options node position, part.Does options node position task := by
  have below := Position.IsBelow.within node
  cases part with
  | present field => exact Task.required_does (by simp) fun _ _ => List.forall_mem_nil _
  | mark field =>
      exact Task.required_does (by simp) fun value found =>
        Task.shaped_does (fun _ failed => .mark rfl found failed) fun _ _ => List.forall_mem_nil _
  | spelling => exact List.forall_mem_nil _
  | child field =>
      exact Task.required_does (by simp) fun value found =>
        Task.child_does (List.mem_singleton_self _) ⟨rfl, rfl⟩ found
  | text field =>
      exact Task.required_does (by simp) fun value found =>
        Task.text_does (List.mem_singleton_self _) ⟨rfl, rfl⟩ found
  | side field =>
      refine Task.required_does (by simp) fun value found => List.forall_mem_singleton.mpr ?_
      exact .visit (.field (List.mem_singleton_self _) (.inl rfl) found (.inl rfl))
        (Position.isBelow_of node _) (Position.isMarked_of node _)
  | optionalChild field =>
      exact Task.forall_optional fun value found =>
        Task.child_does (List.mem_singleton_self _) ⟨rfl, rfl⟩ found
  | optionalText field =>
      exact Task.forall_optional fun value found =>
        Task.text_does (List.mem_singleton_self _) ⟨rfl, rfl⟩ found
  | children field =>
      have listed : ⟨field, .nodes, .rendered⟩ ∈ (Part.children field).readings :=
        List.mem_singleton_self _
      refine Task.required_does (by simp) fun value found => ?_
      rw [← Node.field_of_field? found]
      refine Task.wanting_does (Task.noText_of_items listed (.inl rfl)) ?_
      rw [Node.field_of_field? found]
      refine Task.shaped_does (fun _ failed => .several listed (.inl rfl) found failed)
        fun items held => Task.items_does listed (.inl rfl) (.inr ?_) fun _ => false
      rw [Node.field_of_field? found, held]
  | optionalChildren field =>
      have listed : ⟨field, .nodes, .rendered⟩ ∈ (Part.optionalChildren field).readings :=
        List.mem_singleton_self _
      exact Task.wanting_does (Task.noText_of_items listed (.inl rfl))
        (Task.optionalItems_does listed (.inl rfl))
  | clauses field =>
      have listed : ⟨field, .nodes, .rendered⟩ ∈ (Part.clauses field).readings :=
        List.mem_singleton_self _
      refine Task.shaped_does (fun _ failed => .optional listed (.inl rfl) failed)
        fun items found => ?_
      rcases Node.optionalItems_eq_ok found with rfl | held
      · exact List.forall_mem_nil _
      · refine Task.forall_texts fun index value place => ?_
        have provided : Source.Provides node (.clauses field) (.item field index) value :=
          .item listed (.inl rfl) held place fun _ _ _ role => role
        exact Task.wanting_does (fun other => .noText provided other)
          (List.forall_mem_singleton.mpr (.visit provided below (Position.isMarked_within node)))
  | elements field =>
      have listed : ⟨field, .holedNodes, .rendered⟩ ∈ (Part.elements field).readings :=
        List.mem_singleton_self _
      exact Task.wanting_does (Task.noText_of_items listed (.inr (.inl rfl)))
        (Task.optionalItems_does listed (.inr ⟨rfl, rfl⟩))
  | statements field =>
      exact Task.required_does (by simp) fun value found =>
        Task.statements_does (List.mem_singleton_self _) found
  | optionalStatements field =>
      have listed : ⟨field, .holedNodes, .rendered⟩ ∈ (Part.optionalStatements field).readings :=
        List.mem_singleton_self _
      refine Task.sequence_does listed (.inl rfl) (fun crash failed => ?_) ?_
      · refine .optional listed (.inr rfl) ?_
        unfold Node.optionalItems
        split at failed
        · next flag => rw [if_pos flag, failed]
        · cases failed
      · split
        · exact .inl rfl
        · exact .inr rfl
  | name =>
      simp only [Part.tasks]
      split
      · next blank => exact List.forall_mem_singleton.mpr (.nameless rfl blank)
      · exact List.forall_mem_nil _
  | call =>
      have listed : ⟨"callee", .node, .called⟩ ∈ Part.call.readings := List.mem_cons_self ..
      refine Task.required_does (by simp) fun callee found => ?_
      refine Task.shaped_does (fun _ failed => .single listed found failed) fun called same => ?_
      have held := (Node.field_of_field? found).trans (Value.asNode_eq_ok same)
      refine Task.shaped_does (fun _ failed => .callee rfl held failed) fun substitute asked => ?_
      cases substitute with
      | some substitute =>
          refine Task.substituted_does (.inl rfl) listed (fun callee other => ?_) substitute
          cases held.symm.trans other
          simp [Use.roles, Rule.kind_of_methodSubstitute? asked]
      | none =>
          have provided : Source.Provides node .call (.field "callee") callee :=
            .field listed (.inl rfl) found (.inr rfl)
          exact List.forall_mem_append.mpr ⟨List.forall_mem_singleton.mpr
            (.visit provided ⟨rfl, rfl, rfl⟩ ⟨rfl, rfl, (Position.isMarked_within node).target⟩),
            Task.continued_does provided⟩
  | construction =>
      exact Task.wanting_does (fun other => .noText (.call rfl) other)
        (List.forall_mem_singleton.mpr (.visit (.call rfl) (.inl ⟨rfl, rfl⟩) trivial))
  | access =>
      refine Task.required_does (by simp) fun object foundObject => ?_
      refine Task.required_does (by simp) fun property foundProperty => ?_
      refine Task.shaped_does (fun _ failed => .property rfl failed) fun substitute asked => ?_
      cases substitute with
      | some substitute =>
          have callee : ⟨"callee", .node, .receiver⟩ ∈ Part.access.readings := by decide
          exact Task.substituted_does (.inr rfl) callee (fun _ _ => List.mem_singleton_self _)
            substitute
      | none =>
          have target := (Position.isMarked_within node).target
          refine List.forall_mem_append.mpr
            ⟨List.forall_mem_singleton.mpr ?_, List.forall_mem_singleton.mpr ?_⟩
          · exact .visit (.field (by simp [Part.readings]) (.inl rfl) foundObject (.inl rfl))
              ⟨rfl, rfl, rfl⟩ ⟨rfl, rfl, target⟩
          · refine .visit (.field (by simp [Part.readings]) (.inl rfl) foundProperty (.inl rfl)) ?_ ?_
            · split
              · exact below
              · exact ⟨rfl, rfl, rfl⟩
            · split
              · exact Position.isMarked_within node
              · exact ⟨rfl, rfl, target⟩
  | declaration =>
      exact List.forall_mem_singleton.mpr (.visit (.declaration rfl _) (.inr ⟨rfl, rfl⟩) trivial)
  | parameters =>
      have listed : ⟨"params", .nodes, .parameter⟩ ∈ Part.parameters.readings := by decide
      refine Task.shaped_does (fun _ failed => .optional listed (.inl rfl) failed)
        fun params found => ?_
      rcases Node.optionalItems_eq_ok found with rfl | held
      · exact List.forall_mem_nil _
      · exact List.forall_mem_flatMap.mpr fun entry inside =>
          Task.parameter_does held (List.mem_zipIdx_iff_getElem?.mp inside)
  | parameterTexts =>
      exact Task.wanting_does Task.noText_of_parameters (List.forall_mem_nil _)
  | entry => exact List.forall_mem_singleton.mpr (.enter rfl)
  | superclass =>
      have listed : ⟨"superClass", .node, .rendered⟩ ∈ Part.superclass.readings := by decide
      refine Task.forall_optional fun value found => ?_
      refine Task.shaped_does (fun _ failed => .single listed found failed) fun parent _ => ?_
      split
      · exact List.forall_mem_nil _
      · exact Task.child_does listed ⟨rfl, rfl⟩ found
  | method =>
      refine Task.required_does (by simp) fun key foundKey => ?_
      refine Task.required_does (by simp) fun value found => Task.unlessUnsupported_does ?_
      refine Task.shaped_does (fun _ failed => .method rfl found failed) fun function same => ?_
      have held := (Node.field_of_field? found).trans (Rule.methodFunction_eq_ok same)
      refine List.forall_mem_singleton.mpr
        (.visit (.method (List.mem_singleton_self _) held _) ⟨rfl, function, ?_⟩ trivial)
      rw [Node.field_of_field? foundKey]
  | entryValue =>
      refine Task.required_does (by simp) fun key foundKey => ?_
      refine Task.required_does (by simp) fun value found => Task.unlessUnsupported_does ?_
      refine Task.shaped_does (fun _ failed => .single (List.mem_cons_self ..) foundKey failed)
        fun name same => ?_
      have held := (Node.field_of_field? foundKey).trans (Value.asNode_eq_ok same)
      exact Task.shaped_does (fun _ failed => .key rfl held failed) fun _ _ =>
        Task.child_does (by simp [Part.readings]) ⟨rfl, rfl⟩ found
  | alternate =>
      have listed : ⟨"alternate", .node, .rendered⟩ ∈ Part.alternate.readings := by decide
      exact Task.forall_optional fun value found =>
        Task.shaped_does (fun _ failed => .single listed found failed) fun _ _ =>
          Task.text_does listed ⟨rfl, rfl⟩ found
  | loopStart =>
      have listed : ⟨"init", .node, .rendered⟩ ∈ Part.loopStart.readings := by decide
      refine Task.forall_optional fun init found => ?_
      refine Task.shaped_does (fun _ failed => .single listed found failed) fun start same => ?_
      have held := (Node.field_of_field? found).trans (Value.asNode_eq_ok same)
      split
      · next kind =>
          refine Task.needed_does (.declarators rfl held kind) fun value declared => ?_
          refine Task.shaped_does (fun _ failed => .declarators rfl held kind declared failed)
            fun items given => Task.forall_texts fun index item place => ?_
          have provided : Source.Provides node .loopStart (.declarator index) item :=
            .declarator listed held kind (by rw [Node.field_of_field? declared, given]) place
          exact Task.wanting_does (fun other => .noText provided other)
            (List.forall_mem_singleton.mpr (.visit provided ⟨start, held, kind, rfl⟩ trivial))
      · exact Task.text_does listed ⟨rfl, rfl⟩ found
  | moduleBody =>
      have listed : ⟨"body", .nodeOrNodes, .rendered⟩ ∈ Part.moduleBody.readings := by decide
      refine Task.required_does (by simp) fun body found => ?_
      unfold Task.moduleBody
      split
      · refine Task.sequence_does listed (.inr rfl) (fun _ failed => ?_)
          (.inl (Node.field_of_field? found).symm)
        cases failed
      · next single =>
          exact List.forall_mem_singleton.mpr
            (.visit (.field listed (.inr ⟨rfl, single⟩) found (.inl rfl)) below
              (Position.isMarked_within node))
  | exported =>
      have listed : ⟨"declaration", .node, .rendered⟩ ∈ Part.exported.readings := by decide
      simp only [Part.tasks]
      split
      · exact Task.required_does (by simp) fun specifiers found =>
          Task.statements_does (by simp [Part.readings]) found
      · next declaration found =>
          refine Task.wanting_does
            (fun other => .noText (.field listed (.inl rfl) found (.inl rfl)) other) ?_
          refine List.forall_mem_append.mpr ⟨Task.child_does listed ⟨rfl, rfl⟩ found, ?_⟩
          exact Task.shaped_does (fun _ failed => .single listed found failed)
            fun _ _ => List.forall_mem_nil _
  | importedModule =>
      simp only [Part.tasks]
      split
      · next alone => exact List.forall_mem_singleton.mpr (.orphan rfl alone)
      · next missing nameless => exact List.forall_mem_singleton.mpr (.unnamed rfl nameless)
      · next unusable => exact List.forall_mem_singleton.mpr (.crash (.source rfl unusable))
      · exact List.forall_mem_nil _
  | importedBinding =>
      simp only [Part.tasks]
      split
      · exact List.forall_mem_nil _
      · exact Task.required_does (by simp) fun _ _ => List.forall_mem_nil _

end PhpRendering
