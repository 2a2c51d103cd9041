import PhpRendering.Proofs.Passable

/-!
# What a node has to have

A part is met when the node has every field that the part requires, of itself or of
a node below it on whose behalf it reads, and no form that has no rendering. A
readable part is met exactly when none of its tasks stops or reports.
-/

namespace PhpRendering

def Part.IsMet (options : Options) (node : Node) (position : Position) : Part → Prop
  | .present field => node.has field = true
  | .mark field => node.has field = true
  | .child field => node.has field = true
  | .text field => node.has field = true
  | .side field => node.has field = true
  | .children field => node.has field = true
  | .statements field => node.has field = true
  | .name => node.name ≠ ""
  | .call =>
      ∃ callee, node.field "callee" = .node callee ∧
        ∀ substitute, Rule.methodSubstitute? options callee = .ok (some substitute) →
          callee.has "object" = true
  | .access => node.has "object" = true ∧ node.has "property" = true
  | .parameters =>
      ∀ param ∈ Node.nodesOf (node.field "params"), param.kind = "AssignmentPattern" →
        param.has "left" = true ∧ param.has "right" = true
  | .method =>
      node.has "key" = true ∧ node.has "value" = true ∧ Rule.unsupportedForm? node = none
  | .entryValue =>
      node.has "key" = true ∧ node.has "value" = true ∧ Rule.unsupportedForm? node = none
  | .loopStart =>
      ∀ start, node.field "init" = .node start → start.kind = "VariableDeclaration" →
        start.has "declarations" = true
  | .moduleBody => node.has "body" = true
  | .exported => node.has "declaration" = true ∨ node.has "specifiers" = true
  | .importedModule => ∃ moduleName, position.importSource = .named moduleName
  | .importedBinding => node.has "id" = true ∨ node.has "imported" = true
  | _ => True

/-- Whether a node is of a kind with a rule and has all that the rule requires. -/
def Node.IsRenderable (options : Options) (node : Node) (position : Position) : Prop :=
  ∃ construct, Construct.ofKind? node.kind = some construct ∧
    ∀ part ∈ construct.parts, part.IsMet options node position

def Task.IsSilent : Task → Prop
  | .visit _ _ _ => True
  | .enter _ => True
  | .report _ => False
  | .stop _ => False

def Silent (tasks : List Task) : Prop :=
  ∀ task ∈ tasks, task.IsSilent

namespace Silent

@[simp]
theorem nil : Silent [] :=
  List.forall_mem_nil _

@[simp]
theorem append_iff {first second : List Task} :
    Silent (first ++ second) ↔ Silent first ∧ Silent second :=
  List.forall_mem_append

@[simp]
theorem visit (source : Source) (value : Value) (position : Position) :
    Silent [.visit source value position] :=
  List.forall_mem_singleton.mpr trivial

@[simp]
theorem child (field : String) (position : Position) (value : Value) :
    Silent (Task.child field position value) :=
  visit _ _ _

@[simp]
theorem items (source : Nat → Source) (position : Nat → Position) (skips : Bool)
    (values : List Value) : Silent (Task.items source position skips values) :=
  Task.forall_items fun _ _ _ _ => trivial

@[simp]
theorem not_stop (fault : Fault) : ¬ Silent [.stop fault] :=
  fun silent => silent _ (List.mem_singleton_self _)

@[simp]
theorem not_report (diagnostic : Diagnostic) : ¬ Silent [.report diagnostic] :=
  fun silent => silent _ (List.mem_singleton_self _)

@[simp]
theorem wanting_iff {fits : Bool} {tasks : List Task} :
    Silent (Task.wanting fits tasks) ↔ fits = true ∧ Silent tasks := by
  cases fits <;> simp [Task.wanting]

variable {node : Node} {field : String}

theorem needed_iff {next : Value → List Task} :
    Silent (Task.needed node field next) ↔
      ∃ value, node.field? field = some value ∧ Silent (next value) := by
  unfold Task.needed Node.require
  cases node.field? field <;> simp

theorem optional_iff {next : Value → List Task} :
    Silent (Task.optional node field next) ↔
      ∀ value, node.field? field = some value → Silent (next value) := by
  unfold Task.optional
  cases node.field? field <;> simp

theorem shaped_iff {α : Type} {result : Except Crash α} {next : α → List Task} :
    Silent (Task.shaped result next) ↔ ∃ found, result = .ok found ∧ Silent (next found) := by
  unfold Task.shaped
  cases result <;> simp

theorem unlessUnsupported_iff {next : List Task} :
    Silent (Task.unlessUnsupported node next) ↔
      Rule.unsupportedForm? node = none ∧ Silent next := by
  unfold Task.unlessUnsupported
  cases Rule.unsupportedForm? node <;> simp

end Silent

/-! ## The built-in substitutes -/

def Substitute.takesReceiver : Substitute → Bool
  | .receiverFirst _ => true
  | .receiverLast _ => true
  | .charAt => true
  | _ => false

def Substitute.takesObject : Substitute → Bool
  | .propertyFunction _ => true
  | _ => false

theorem SubstituteTable.mem_of_find? {entries : List (String × Substitute)} {name : String}
    {substitute : Substitute} (found : find? entries name = some substitute) :
    ∃ known, (known, substitute) ∈ entries := by
  unfold find? at found
  split at found
  · cases found
  · obtain ⟨before, after, rfl, -⟩ := List.lookup_eq_some_iff.mp found
    exact ⟨name, List.mem_append_right _ (List.mem_cons_self ..)⟩

/-- Nothing is found under the empty name. -/
theorem SubstituteTable.name_of_find? {entries : List (String × Substitute)} {name : String}
    {substitute : Substitute} (found : find? entries name = some substitute) : name ≠ "" := by
  unfold find? at found
  split at found
  · cases found
  · assumption

namespace Rule

variable {options : Options} {substitute : Substitute}

/-- A call with a substitute names a method that has it. -/
theorem methodSubstitute?_found {callee : Node}
    (asked : methodSubstitute? options callee = .ok (some substitute)) :
    ∃ name, callee.accessedName = .ok name ∧
      SubstituteTable.find? options.substitutes.methods name = some substitute := by
  unfold methodSubstitute? at asked
  split at asked
  · cases accessed : callee.accessedName with
    | error crash =>
        rw [accessed] at asked
        cases asked
    | ok name =>
        rw [accessed] at asked
        exact ⟨name, rfl, Except.ok.inj asked⟩
  · cases asked

/-- A member access with a substitute names a property that has it. -/
theorem propertySubstitute?_found {member : Node} {position : Position}
    (asked : propertySubstitute? options member position = .ok (some substitute)) :
    ∃ name, member.accessedName = .ok name ∧
      SubstituteTable.find? options.substitutes.properties name = some substitute := by
  unfold propertySubstitute? at asked
  split at asked
  · cases asked
  · cases fine : position.checkParent with
    | error crash =>
        rw [fine] at asked
        cases asked
    | ok _ =>
        rw [fine] at asked
        cases target : position.isTarget with
        | true =>
            rw [target] at asked
            cases asked
        | false =>
            rw [target] at asked
            cases accessed : member.accessedName with
            | error crash =>
                rw [accessed] at asked
                cases asked
            | ok name =>
                rw [accessed] at asked
                exact ⟨name, rfl, Except.ok.inj asked⟩

/-- The substitute of a call is one of those of methods. -/
theorem methodSubstitute?_listed {callee : Node}
    (asked : methodSubstitute? options callee = .ok (some substitute)) :
    ∃ name, (name, substitute) ∈ options.substitutes.methods := by
  obtain ⟨name, -, found⟩ := methodSubstitute?_found asked
  exact SubstituteTable.mem_of_find? found

/-- The substitute of a member access is one of those of properties. -/
theorem propertySubstitute?_listed {member : Node} {position : Position}
    (asked : propertySubstitute? options member position = .ok (some substitute)) :
    ∃ name, (name, substitute) ∈ options.substitutes.properties := by
  obtain ⟨name, -, found⟩ := propertySubstitute?_found asked
  exact SubstituteTable.mem_of_find? found

theorem methodSubstitute?_builtIn (table : options.substitutes = .builtIn) {callee : Node}
    (asked : methodSubstitute? options callee = .ok (some substitute)) :
    substitute.takesReceiver = true := by
  obtain ⟨name, listed⟩ := methodSubstitute?_listed asked
  rw [table] at listed
  have known : ∀ entry ∈ SubstituteTable.builtIn.methods, entry.2.takesReceiver = true := by decide
  exact known _ listed

theorem propertySubstitute?_builtIn (table : options.substitutes = .builtIn) {member : Node}
    {position : Position}
    (asked : propertySubstitute? options member position = .ok (some substitute)) :
    substitute.takesObject = true := by
  obtain ⟨name, listed⟩ := propertySubstitute?_listed asked
  rw [table] at listed
  have known : ∀ entry ∈ SubstituteTable.builtIn.properties, entry.2.takesObject = true := by decide
  exact known _ listed

end Rule

/-! ## Silent parts -/

theorem Node.has_iff {node : Node} {field : String} :
    node.has field = true ↔ ∃ value, node.field? field = some value :=
  Option.isSome_iff_exists

namespace Silent

variable {node : Node} {field : String} {shape : Shape} {use : Use}

/-- A list that may be absent is rendered without an obstacle. -/
theorem optionalItems {skips : Bool} (fulfils : node.Fulfils ⟨field, shape, use⟩)
    (several : shape = .nodes ∨ shape = .holedNodes) :
    Silent (Task.optionalItems node field skips) := by
  obtain ⟨found, listed⟩ := fulfils.optionalItems several
  exact shaped_iff.mpr ⟨found, listed, items _ _ _ found⟩

theorem sequence {list : Value} (fits : list.itemsYieldText = true)
    (listed : ∃ statements, list = .list statements) : Silent (Task.sequence node field list) := by
  obtain ⟨statements, rfl⟩ := listed
  exact wanting_iff.mpr ⟨fits, shaped_iff.mpr ⟨statements, rfl, items _ _ _ statements⟩⟩

/-- The statements that a readable node holds. -/
theorem statements (fulfils : node.Fulfils ⟨field, .holedNodes, .rendered⟩) {list : Value}
    (found : node.field? field = some list) : Silent (Task.sequence node field list) :=
  sequence (Node.field_of_field? found ▸ fulfils.itemsYieldText)
    (fulfils.items_of_field? (.inr rfl) found)

theorem text (fulfils : node.Fulfils ⟨field, .node, .rendered⟩) {value : Value}
    (found : node.field? field = some value) :
    Silent (Task.text field (.within node) value) := by
  have yields := fulfils.form_eq
  rw [Node.field_of_field? found] at yields
  exact wanting_iff.mpr ⟨by rw [yields]; rfl, visit _ _ _⟩

theorem receiver_iff {source : Source} {member : Node} :
    Silent (Task.receiver source member) ↔ member.has "object" = true := by
  simp [Task.receiver, needed_iff, Node.has_iff]

theorem callReceiver_iff {callee : Node} (held : node.field "callee" = .node callee) :
    Silent (Task.callReceiver node) ↔ callee.has "object" = true := by
  simp [Task.callReceiver, needed_iff, Node.field?_node held, shaped_iff, Value.asNode,
    receiver_iff]

/-- A call with a substitute needs the object of its callee. -/
theorem substituted_call_iff {callee : Node} (held : node.field "callee" = .node callee)
    (operands : node.Fulfils ⟨"arguments", .nodes, .rendered⟩)
    (yields : node.operandsYieldText = true) {substitute : Substitute}
    (takes : substitute.takesReceiver = true) :
    Silent (Task.substituted node substitute) ↔ callee.has "object" = true := by
  have rest : Silent (Task.arguments node) := optionalItems operands (.inl rfl)
  cases substitute with
  | receiverFirst function => simp [Task.substituted, callReceiver_iff held, rest, yields]
  | receiverLast function => simp [Task.substituted, callReceiver_iff held, rest, yields]
  | charAt => simp [Task.substituted, callReceiver_iff held, rest]
  | propertyFunction function => cases takes
  | constant text => cases takes

theorem substituted_read {substitute : Substitute} (takes : substitute.takesObject = true)
    (object : node.has "object" = true) : Silent (Task.substituted node substitute) := by
  cases substitute with
  | propertyFunction function => exact receiver_iff.mpr object
  | receiverFirst function => cases takes
  | receiverLast function => cases takes
  | charAt => cases takes
  | constant text => cases takes

theorem parameter_iff {function : Node}
    (defaults : function.Fulfils ⟨"defaults", .holedNodes, .rendered⟩) (param : Node)
    (index : Nat) :
    Silent (Task.parameter function (.node param) index) ↔
      (param.kind = "AssignmentPattern" → param.has "left" = true ∧ param.has "right" = true) := by
  obtain ⟨default, given⟩ := defaults.itemAt_defaults index
  unfold Task.parameter
  rw [given]
  by_cases pattern : param.kind = "AssignmentPattern"
  · simp [shaped_iff, Value.asNode, pattern, needed_iff, Node.has_iff]
  · refine iff_of_true ?_ fun other => absurd other pattern
    refine shaped_iff.mpr ⟨default, rfl, shaped_iff.mpr ⟨param, rfl, ?_⟩⟩
    rw [if_neg pattern]
    split
    · exact visit _ _ _
    · exact visit _ _ _

/-- A required field is enough when what follows it is silent. -/
theorem needed_of_iff {next : Value → List Task}
    (follow : ∀ value, node.field? field = some value → Silent (next value)) :
    Silent (Task.needed node field next) ↔ node.has field = true := by
  rw [needed_iff, Node.has_iff]
  exact ⟨fun ⟨value, found, _⟩ => ⟨value, found⟩, fun ⟨value, found⟩ =>
    ⟨value, found, follow value found⟩⟩

end Silent

namespace Part

variable {options : Options} {node : Node} {position : Position}

theorem call_silent_iff (table : options.substitutes = .builtIn) (usable : position.IsUsable)
    (readable : Part.call.IsReadable node) :
    Silent (Part.call.tasks options node position) ↔ Part.call.IsMet options node position := by
  have callee : node.Fulfils ⟨"callee", .node, .called⟩ := readable _ (by decide)
  have operands : node.Fulfils ⟨"arguments", .nodes, .rendered⟩ := readable _ (by decide)
  have rest : Silent (Task.arguments node) := Silent.optionalItems operands (.inl rfl)
  simp only [Part.tasks, Part.IsMet, Silent.needed_iff]
  cases found : node.field? "callee" with
  | none => simp [Node.field?_eq_none_iff.mp found]
  | some value =>
      obtain ⟨called, rfl, roles⟩ := callee.node_of_field? (.inl rfl) found
      have known : called.Readable := fun role known => roles role (List.mem_append_left _ known)
      have held := Node.field_of_field? found
      obtain ⟨substitute, asked⟩ := Rule.methodSubstitute?_ok options known
      simp only [Option.some.injEq, exists_eq_left', Silent.shaped_iff, Value.asNode,
        Except.ok.injEq, asked, held, Value.node.injEq]
      cases substitute with
      | some substitute =>
          have yields : node.operandsYieldText = true :=
            Node.operandsYieldText_eq callee (fun other same => by
              cases held.symm.trans same
              simp [Use.roles, Rule.kind_of_methodSubstitute? asked]) operands
          simp [Silent.substituted_call_iff held operands yields
            (Rule.methodSubstitute?_builtIn table asked)]
      | none =>
          have fine : position.checkParent = .ok () := if_pos usable.parent
          simp [Task.continued, Value.form, known.form_eq, Form.isText, operands.itemsYieldText,
            Silent.shaped_iff, rest, fine]

theorem access_silent_iff (table : options.substitutes = .builtIn) (usable : position.IsUsable)
    (readable : Part.access.IsReadable node) :
    Silent (Part.access.tasks options node position) ↔ Part.access.IsMet options node position := by
  obtain ⟨substitute, asked⟩ := Rule.propertySubstitute?_ok options readable usable
  simp only [Part.tasks, Part.IsMet, Silent.needed_iff, Silent.shaped_iff, asked,
    Except.ok.injEq, exists_eq_left']
  cases substitute with
  | some substitute =>
      have takes := Rule.propertySubstitute?_builtIn table asked
      simp only [Node.has_iff]
      constructor
      · rintro ⟨object, found, property, foundProperty, -⟩
        exact ⟨⟨object, found⟩, ⟨property, foundProperty⟩⟩
      · rintro ⟨⟨object, found⟩, ⟨property, foundProperty⟩⟩
        exact ⟨object, found, property, foundProperty,
          Silent.substituted_read takes (Node.has_iff.mpr ⟨object, found⟩)⟩
  | none => simp [Node.has_iff]

theorem parameters_silent_iff (readable : Part.parameters.IsReadable node) :
    Silent (Part.parameters.tasks options node position) ↔
      Part.parameters.IsMet options node position := by
  have params : node.Fulfils ⟨"params", .nodes, .parameter⟩ := readable _ (by decide)
  have defaults : node.Fulfils ⟨"defaults", .holedNodes, .rendered⟩ := readable _ (by decide)
  simp only [Part.tasks, Part.IsMet]
  rcases params.1 with nothing | ⟨items, listed, nodes⟩
  · simp only at nothing
    rw [nothing, Node.optionalItems_of_null nothing]
    exact iff_of_true Silent.nil (List.forall_mem_nil _)
  · simp only at listed
    rw [listed, Node.optionalItems_of_list listed]
    constructor
    · intro silent param inside
      obtain ⟨value, held, same⟩ := List.mem_filterMap.mp inside
      obtain ⟨_, ⟨⟩, each⟩ := Silent.shaped_iff.mp silent
      cases value <;> cases same
      obtain ⟨index, place⟩ := List.getElem?_of_mem held
      refine (Silent.parameter_iff defaults _ index).mp fun task among => ?_
      exact each task (List.mem_flatMap.mpr
        ⟨(_, index), List.mk_mem_zipIdx_iff_getElem?.mpr place, among⟩)
    · intro met
      refine Silent.shaped_iff.mpr ⟨items, rfl, List.forall_mem_flatMap.mpr fun entry inside => ?_⟩
      have held := List.fst_mem_of_mem_zipIdx inside
      obtain ⟨param, same⟩ := nodes _ held
      rw [same]
      refine (Silent.parameter_iff defaults _ _).mpr (met param (List.mem_filterMap.mpr ⟨_, held, ?_⟩))
      rw [same]
      rfl

theorem loopStart_silent_iff (readable : Part.loopStart.IsReadable node) :
    Silent (Part.loopStart.tasks options node position) ↔
      Part.loopStart.IsMet options node position := by
  simp only [Part.tasks, Part.IsMet, Silent.optional_iff]
  cases found : node.field? "init" with
  | none => simp [Node.field?_eq_none_iff.mp found]
  | some value =>
      obtain ⟨start, rfl, roles⟩ :=
        (readable _ (List.mem_singleton_self _)).node_of_field? (.inl rfl) found
      have held := Node.field_of_field? found
      simp only [Option.some.injEq, forall_eq', held, Value.node.injEq, Task.loopInit,
        Silent.shaped_iff, Value.asNode, Except.ok.injEq, exists_eq_left']
      by_cases kind : start.kind = "VariableDeclaration"
      · have known : Construct.ofKind? start.kind = some .variableDeclaration := by
          rw [kind]
          rfl
        have declarations : start.Fulfils ⟨"declarations", .nodes, .rendered⟩ :=
          (Node.readable_iff_parts known).mp roles (.children "declarations")
            (List.mem_singleton_self _) _ (List.mem_singleton_self _)
        simp only [kind, if_true, true_implies]
        refine Silent.needed_of_iff fun list found => ?_
        obtain ⟨items, rfl⟩ := declarations.items_of_field? (.inl rfl) found
        refine Silent.shaped_iff.mpr ⟨items, rfl, Task.forall_texts fun index item place => ?_⟩
        have provided : Source.Provides node .loopStart (.declarator index) item :=
          .declarator (List.mem_singleton_self _) held kind
            (congrArg Value.items (Node.field_of_field? found)) place
        exact Silent.wanting_iff.mpr ⟨by rw [provided.form_eq readable]; rfl, Silent.visit _ _ _⟩
      · have init : (node.field "init").form = .text :=
          (readable _ (List.mem_singleton_self _)).form_eq
        rw [held] at init
        simp [kind, Task.text, init, Form.isText]

/-- A readable part stops and reports nothing exactly when it is met. -/
theorem silent_iff (table : options.substitutes = .builtIn) (usable : position.IsUsable)
    {part : Part} (readable : part.IsReadable node) :
    Silent (part.tasks options node position) ↔ part.IsMet options node position := by
  cases part with
  | present field => exact Silent.needed_of_iff fun _ _ => Silent.nil
  | mark field =>
      refine Silent.needed_of_iff fun value found => ?_
      have argument : node.Fulfils ⟨"argument", .anything, .rendered⟩ :=
        readable _ (List.mem_cons_of_mem _ (List.mem_singleton_self _))
      rw [argument.form_eq]
      rcases (readable _ (List.mem_cons_self ..)).1 with nothing | ⟨letters, text⟩
      · rw [Node.field?_eq_none_iff.mpr nothing] at found
        cases found
      · cases (Node.field_of_field? found).symm.trans text
        exact Silent.nil
  | spelling => exact iff_of_true Silent.nil trivial
  | child field => exact Silent.needed_of_iff fun value _ => Silent.child _ _ value
  | text field =>
      exact Silent.needed_of_iff fun value found =>
        Silent.text (readable _ (List.mem_singleton_self _)) found
  | side field => exact Silent.needed_of_iff fun value _ => Silent.child _ _ value
  | optionalChild field =>
      exact iff_of_true (Silent.optional_iff.mpr fun value _ => Silent.child _ _ value) trivial
  | optionalText field =>
      exact iff_of_true (Silent.optional_iff.mpr fun value found =>
        Silent.text (readable _ (List.mem_singleton_self _)) found) trivial
  | children field =>
      refine Silent.needed_of_iff fun list found => ?_
      have several : node.Fulfils ⟨field, .nodes, .rendered⟩ := readable _ (List.mem_singleton_self _)
      have yields := several.itemsYieldText
      rw [Node.field_of_field? found] at yields
      obtain ⟨items, rfl⟩ := several.items_of_field? (.inl rfl) found
      exact Silent.wanting_iff.mpr
        ⟨yields, Silent.shaped_iff.mpr ⟨items, rfl, Silent.items _ _ _ items⟩⟩
  | optionalChildren field =>
      have several : node.Fulfils ⟨field, .nodes, .rendered⟩ := readable _ (List.mem_singleton_self _)
      exact iff_of_true (Silent.wanting_iff.mpr
        ⟨several.itemsYieldText, Silent.optionalItems several (.inl rfl)⟩) trivial
  | clauses field =>
      have several : node.Fulfils ⟨field, .nodes, .rendered⟩ := readable _ (List.mem_singleton_self _)
      obtain ⟨items, listed⟩ := several.optionalItems (.inl rfl)
      refine iff_of_true (Silent.shaped_iff.mpr ⟨items, listed, ?_⟩) trivial
      have yields := several.itemsYieldText
      rw [Node.itemsYieldText_eq listed] at yields
      refine Task.forall_texts fun index item place => ?_
      exact Silent.wanting_iff.mpr
        ⟨List.all_eq_true.mp yields item (List.mem_of_getElem? place), Silent.visit _ _ _⟩
  | elements field =>
      have several : node.Fulfils ⟨field, .holedNodes, .rendered⟩ :=
        readable _ (List.mem_singleton_self _)
      exact iff_of_true (Silent.wanting_iff.mpr
        ⟨several.itemsYieldText, Silent.optionalItems several (.inr rfl)⟩) trivial
  | statements field =>
      exact Silent.needed_of_iff fun list found =>
        Silent.statements (readable _ (List.mem_singleton_self _)) found
  | optionalStatements field =>
      have several : node.Fulfils ⟨field, .holedNodes, .rendered⟩ :=
        readable _ (List.mem_singleton_self _)
      refine iff_of_true ?_ trivial
      simp only [Part.tasks]
      split
      · next flag =>
          exact Silent.sequence several.itemsYieldText (several.items_of_flag (.inr rfl) flag)
      · exact Silent.sequence rfl ⟨[], rfl⟩
  | name =>
      simp only [Part.tasks, Part.IsMet]
      split
      · next nameless => simp [nameless]
      · next named => simp [named]
  | call => exact call_silent_iff table usable readable
  | construction =>
      refine iff_of_true (Silent.wanting_iff.mpr ⟨?_, Silent.visit _ _ _⟩) trivial
      rw [(Rule.asCall_readable readable).form_eq]
      rfl
  | access => exact access_silent_iff table usable readable
  | declaration => exact iff_of_true (Silent.visit _ _ _) trivial
  | parameters => exact parameters_silent_iff readable
  | parameterTexts =>
      have params : node.Fulfils ⟨"params", .nodes, .parameter⟩ :=
        readable _ (List.mem_singleton_self _)
      exact iff_of_true (Silent.wanting_iff.mpr ⟨params.parametersYieldText, Silent.nil⟩) trivial
  | entry => exact iff_of_true (List.forall_mem_singleton.mpr trivial) trivial
  | superclass =>
      refine iff_of_true (Silent.optional_iff.mpr fun value found => ?_) trivial
      obtain ⟨parent, rfl, -⟩ :=
        (readable _ (List.mem_singleton_self _)).node_of_field? (.inl rfl) found
      refine Silent.shaped_iff.mpr ⟨parent, rfl, ?_⟩
      split
      · exact Silent.nil
      · exact Silent.child _ _ _
  | method =>
      simp only [Part.tasks, Part.IsMet, Silent.needed_iff, Silent.unlessUnsupported_iff]
      cases found : node.field? "value" with
      | none => simp [Node.has_iff, found]
      | some value =>
          obtain ⟨function, rfl, -⟩ :=
            (readable _ (List.mem_singleton_self _)).node_of_field? (.inl rfl) found
          simp [Node.has_iff, found, Silent.shaped_iff, Rule.methodFunction, Value.asNode]
  | entryValue =>
      simp only [Part.tasks, Part.IsMet, Silent.needed_iff, Silent.unlessUnsupported_iff]
      cases found : node.field? "key" with
      | none => simp [Node.has_iff, found]
      | some key =>
          have keys : node.Fulfils ⟨"key", .node, .spelled⟩ := readable _ (List.mem_cons_self ..)
          obtain ⟨name, rfl, roles⟩ := keys.node_of_field? (.inl rfl) found
          obtain ⟨text, spelled⟩ := Rule.keyText_ok roles
          simp [Node.has_iff, found, Silent.shaped_iff, Value.asNode, spelled]
  | alternate =>
      refine iff_of_true (Silent.optional_iff.mpr fun value found => ?_) trivial
      have single : node.Fulfils ⟨"alternate", .node, .rendered⟩ :=
        readable _ (List.mem_singleton_self _)
      obtain ⟨branch, rfl, -⟩ := single.node_of_field? (.inl rfl) found
      exact Silent.shaped_iff.mpr ⟨branch, rfl, Silent.text single found⟩
  | loopStart => exact loopStart_silent_iff readable
  | moduleBody =>
      refine Silent.needed_of_iff fun body found => ?_
      have yields := (readable _ (List.mem_singleton_self _)).itemsYieldText
      rw [Node.field_of_field? found] at yields
      unfold Task.moduleBody
      split
      · exact Silent.sequence yields ⟨_, rfl⟩
      · exact Silent.child _ _ _
  | exported =>
      simp only [Part.tasks, Part.IsMet]
      cases found : node.field? "declaration" with
      | none =>
          have absent : node.has "declaration" = false := by simp [Node.has, found]
          simp only [absent, Bool.false_eq_true, false_or]
          exact Silent.needed_of_iff fun list found => Silent.statements (readable _ (by decide)) found
      | some value =>
          have single : node.Fulfils ⟨"declaration", .node, .rendered⟩ :=
            readable _ (List.mem_cons_self ..)
          have yields := single.form_eq
          rw [Node.field_of_field? found] at yields
          obtain ⟨exported, rfl, -⟩ := single.node_of_field? (.inl rfl) found
          simp [Node.has, found, Silent.shaped_iff, Value.asNode, yields, Form.isText]
  | importedModule =>
      simp only [Part.tasks, Part.IsMet]
      cases position.importSource <;> simp
  | importedBinding =>
      simp only [Part.tasks, Part.IsMet, Node.has_iff]
      cases found : node.field? "id" <;> simp [Silent.needed_iff]

end Part

end PhpRendering
