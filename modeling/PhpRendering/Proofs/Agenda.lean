import PhpRendering.Proofs.Form

/-!
# Agendas of rules

What a rule does besides making text does not depend on the texts of the children.
It is an agenda: children to render, functions to enter, diagnostics to report, and
faults to stop at, in a fixed order. That a text is wanted of a child which yields none
is told by the form of the child. A construct consists of parts, each part has
its own tasks, and a rule does the tasks of the parts of its construct one after
another.
-/

namespace PhpRendering

/-- Where a node has a value from that it has rendered. -/
inductive Source where
  /-- a copy of the node itself -/
  | copy
  /-- a field -/
  | field (name : String)
  /-- an item of a list -/
  | item (name : String) (index : Nat)
  /-- the object of the callee -/
  | receiver
  /-- a declarator of the first clause of a loop -/
  | declarator (index : Nat)
  /-- the declaration for the function of a method -/
  | method
  /-- the assignment for a parameter that is a pattern -/
  | pattern (index : Nat)
  /-- the assignment for a parameter with an entry in the list of defaults -/
  | defaulted (index : Nat)
deriving DecidableEq, Repr

/-- One thing that a rule does besides making text. -/
inductive Task where
  | visit (source : Source) (value : Value) (position : Position)
  | enter (function : Node)
  | report (diagnostic : Diagnostic)
  | stop (fault : Fault)

namespace Task

def needed (node : Node) (field : String) (next : Value → List Task) : List Task :=
  match node.require field with
  | .ok value => next value
  | .error missing => [.stop (.missing missing)]

def optional (node : Node) (field : String) (next : Value → List Task) : List Task :=
  match node.field? field with
  | some value => next value
  | none => []

def shaped {α : Type} (result : Except Crash α) (next : α → List Task) : List Task :=
  match result with
  | .ok found => next found
  | .error crash => [.stop (.crash crash)]

/-- Tasks whose outputs have to be texts once they are done. -/
def wanting (fits : Bool) (tasks : List Task) : List Task :=
  if fits then tasks else tasks ++ [.stop (.crash .notAName)]

def child (field : String) (position : Position) (value : Value) : List Task :=
  [.visit (.field field) value position]

def text (field : String) (position : Position) (value : Value) : List Task :=
  wanting value.form.isText (child field position value)

def items (source : Nat → Source) (position : Nat → Position) (skips : Bool)
    (values : List Value) : List Task :=
  values.zipIdx.flatMap fun entry =>
    if skips && entry.1.isNull then []
    else [.visit (source entry.2) entry.1 (position entry.2)]

def texts (source : Nat → Source) (position : Position) (values : List Value) : List Task :=
  values.zipIdx.flatMap fun entry =>
    wanting entry.1.form.isText [.visit (source entry.2) entry.1 position]

/-- The rendering of the statement list in a field; holes are skipped. -/
def sequence (parent : Node) (field : String) (list : Value) : List Task :=
  wanting list.itemsYieldText <| shaped list.items fun statements =>
    items (.item field)
      (fun index => { Position.within parent with isLast := index + 1 == statements.length })
      true statements

def receiver (source : Source) (member : Node) : List Task :=
  needed member "object" fun object => [.visit source object (.within member)]

def callReceiver (call : Node) : List Task :=
  needed call "callee" fun callee => shaped callee.asNode (receiver .receiver)

def optionalItems (node : Node) (field : String) (skips : Bool) : List Task :=
  shaped (node.optionalItems field) (items (.item field) (fun _ => .within node) skips)

def arguments (call : Node) : List Task :=
  optionalItems call "arguments" false

def substituted (node : Node) : Substitute → List Task
  | .receiverFirst _ => wanting node.operandsYieldText (callReceiver node ++ arguments node)
  | .receiverLast _ => wanting node.operandsYieldText (arguments node ++ callReceiver node)
  | .propertyFunction _ => receiver (.field "object") node
  | .charAt => arguments node ++ callReceiver node
  | .constant _ => []

def parameter (function : Node) (param : Value) (index : Nat) : List Task :=
  shaped ((Rule.defaults function).itemAt index) fun default =>
    shaped param.asNode fun node =>
      if node.kind = "AssignmentPattern" then
        needed node "left" fun target =>
          needed node "right" fun default =>
            [.visit (.pattern index) (.node (Rule.defaultAssignment function target default))
              (.within function)]
      else if default.isNull then [.visit (.item "params" index) param (.within function)]
      else
        [.visit (.defaulted index) (.node (Rule.defaultAssignment function param default))
          (.within function)]

def loopInit (loop : Node) (init : Value) : List Task :=
  shaped init.asNode fun start =>
    if start.kind = "VariableDeclaration" then
      needed start "declarations" fun declarations =>
        shaped declarations.items (texts .declarator (.within start))
    else text "init" (.within loop) init

def continued (node : Node) (position : Position) (callee : Value) : List Task :=
  let arguments := wanting (node.field "arguments").itemsYieldText (arguments node)
  if callee.form.isText then arguments ++ shaped position.checkParent fun _ => []
  else if callee.form.isList then
    arguments ++ shaped position.checkParent fun _ =>
      if position.inStatement then [.stop (.crash .notAName)] else []
  else arguments ++ [.stop (.crash .notAName)]

def moduleBody (node : Node) : Value → List Task
  | .list statements => sequence node "body" (.list statements)
  | body => child "body" (.within node) body

/-- The report of a form that has no rendering, or what is done for any other form. -/
def unlessUnsupported (node : Node) (next : List Task) : List Task :=
  match Rule.unsupportedForm? node with
  | some feature => [.report (Diagnostic.unsupported node feature)]
  | none => next

end Task

/-- A part of a construct: a field of its nodes, or a group of fields that belong
together, with the way in which they are read. -/
inductive Part where
  /-- a required field that is not rendered -/
  | present (field : String)
  /-- what is added to the output of an argument -/
  | mark (field : String)
  /-- the spelling of a literal -/
  | spelling
  /-- a required child -/
  | child (field : String)
  /-- a required child of which a text is wanted -/
  | text (field : String)
  /-- a required child to which the node may write -/
  | side (field : String)
  /-- a child that may be absent -/
  | optionalChild (field : String)
  /-- a child that may be absent and of which a text is wanted -/
  | optionalText (field : String)
  /-- a required list of children -/
  | children (field : String)
  /-- a list of children that may be absent -/
  | optionalChildren (field : String)
  /-- a list of children that may be absent and of which a text each is wanted at once -/
  | clauses (field : String)
  /-- a list of children and holes that may be absent -/
  | elements (field : String)
  /-- a required list of statements and holes -/
  | statements (field : String)
  /-- a list of statements and holes that may be absent -/
  | optionalStatements (field : String)
  /-- the name of an identifier -/
  | name
  /-- the callee and the arguments of a call, or what its substitute renders of them -/
  | call
  /-- the call with the parts of a construction -/
  | construction
  /-- the object and the property of a member access, or what its substitute renders -/
  | access
  /-- the declaration with the parts of a function expression -/
  | declaration
  /-- the parameters of a function with their defaults -/
  | parameters
  /-- the texts of the parameters, once the function is entered -/
  | parameterTexts
  /-- the entry of a function -/
  | entry
  /-- the superclass of a class, when it is no identifier -/
  | superclass
  /-- the function of a method, unless the form of the method has no rendering -/
  | method
  /-- the value of an object entry, unless the form of the entry has no rendering -/
  | entryValue
  /-- the branch of an alternate -/
  | alternate
  /-- the first clause of a counting loop -/
  | loopStart
  /-- the body of a module, a list of statements or one node -/
  | moduleBody
  /-- the declaration or the specifiers of an export -/
  | exported
  /-- the module that the parent of an imported binding names -/
  | importedModule
  /-- what an imported binding takes from the module -/
  | importedBinding
deriving DecidableEq, Repr

def Part.tasks (options : Options) (node : Node) (position : Position) : Part → List Task
  | .present field => Task.needed node field fun _ => []
  | .mark field =>
      Task.needed node field fun value =>
        Task.shaped ((node.field "argument").form.plus value) fun _ => []
  | .spelling => []
  | .child field => Task.needed node field (Task.child field (.within node))
  | .text field => Task.needed node field (Task.text field (.within node))
  | .side field => Task.needed node field (Task.child field (.of node (node.occurrence field)))
  | .optionalChild field => Task.optional node field (Task.child field (.within node))
  | .optionalText field => Task.optional node field (Task.text field (.within node))
  | .children field =>
      Task.needed node field fun list => Task.wanting list.itemsYieldText <|
        Task.shaped list.items (Task.items (.item field) (fun _ => .within node) false)
  | .optionalChildren field =>
      Task.wanting (node.field field).itemsYieldText (Task.optionalItems node field false)
  | .clauses field =>
      Task.shaped (node.optionalItems field) (Task.texts (.item field) (.within node))
  | .elements field =>
      Task.wanting (node.field field).itemsYieldText (Task.optionalItems node field true)
  | .statements field => Task.needed node field (Task.sequence node field)
  | .optionalStatements field =>
      Task.sequence node field (if node.flag field then node.field field else .list [])
  | .name => if node.name = "" then [.stop (.missing (node.missing "name"))] else []
  | .call =>
      Task.needed node "callee" fun callee =>
        Task.shaped callee.asNode fun called =>
          Task.shaped (Rule.methodSubstitute? options called) fun
            | some substitute => Task.substituted node substitute
            | none =>
                Task.child "callee" { Position.within node with isCallee := true } callee ++
                  Task.continued node position callee
  | .construction =>
      Task.wanting (Rule.asCall node).form.isText
        [.visit .copy (.node (Rule.asCall node)) (.within node)]
  | .access =>
      Task.needed node "object" fun object =>
        Task.needed node "property" fun property =>
          Task.shaped (Rule.propertySubstitute? options node position) fun
            | some substitute => Task.substituted node substitute
            | none =>
                Task.child "object" (Rule.objectPosition node object) object ++
                  Task.child "property"
                    (if node.flag "computed" then .within node
                    else { Position.within node with
                      isMemberProperty := true, isStatic := property.isStatic }) property
  | .declaration =>
      [.visit .copy (.node (Rule.asDeclaration node (node.field "id").name)) position]
  | .parameters =>
      Task.shaped (node.optionalItems "params") fun params =>
        params.zipIdx.flatMap fun entry => Task.parameter node entry.1 entry.2
  | .parameterTexts => Task.wanting node.parametersYieldText []
  | .entry => [.enter node]
  | .superclass =>
      Task.optional node "superClass" fun value =>
        Task.shaped value.asNode fun parent =>
          if parent.kind = "Identifier" then []
          else Task.child "superClass" (.within node) value
  | .method =>
      Task.needed node "key" fun key =>
        Task.needed node "value" fun value =>
          Task.unlessUnsupported node
            (Task.shaped (Rule.methodFunction value) fun function =>
              [.visit .method (.node (Rule.asDeclaration function
                (Naming.methodName options.constructorName key.name))) (.within node)])
  | .entryValue =>
      Task.needed node "key" fun key =>
        Task.needed node "value" fun value =>
          Task.unlessUnsupported node
            (Task.shaped key.asNode fun key =>
              Task.shaped (Rule.keyText key) fun _ => Task.child "value" (.within node) value)
  | .alternate =>
      Task.optional node "alternate" fun value =>
        Task.shaped value.asNode fun _ => Task.text "alternate" (.within node) value
  | .loopStart => Task.optional node "init" (Task.loopInit node)
  | .moduleBody => Task.needed node "body" (Task.moduleBody node)
  | .exported =>
      match node.field? "declaration" with
      | none => Task.needed node "specifiers" (Task.sequence node "specifiers")
      | some found =>
          Task.wanting found.form.isText <|
            Task.child "declaration" (.within node) found ++ Task.shaped found.asNode fun _ => []
  | .importedModule =>
      match position.importSource with
      | .noParent => [.stop (.missing (node.missing "source"))]
      | .unnamed missing => [.stop (.missing missing)]
      | .unusable => [.stop (.crash .notANode)]
      | .named _ => []
  | .importedBinding =>
      match node.field? "id" with
      | some _ => []
      | none => Task.needed node "imported" fun _ => []

def Construct.parts : Construct → List Part
  | .statementList => [.statements "body"]
  | .variableDeclaration => [.children "declarations"]
  | .variableDeclarator => [.child "id", .optionalChild "init"]
  | .identifier => [.name]
  | .punctuator => [.present "value"]
  | .literal => [.spelling]
  | .selfReference => []
  | .binary => [.side "left", .side "right", .present "operator"]
  | .update => [.child "argument", .mark "operator"]
  | .expressionStatement => [.text "expression"]
  | .call => [.call]
  | .construction => [.construction]
  | .member => [.access]
  | .functionDeclaration =>
      [.parameters, .present "body", .entry, .parameterTexts, .text "body"]
  | .functionExpression => [.declaration]
  | .classDeclaration => [.present "id", .superclass, .text "body"]
  | .methodDefinition => [.method]
  | .objectLiteral => [.optionalChildren "properties"]
  | .arrayLiteral => [.elements "elements"]
  | .property => [.entryValue]
  | .returnStatement => [.optionalText "argument"]
  | .ifStatement => [.child "test", .text "consequent", .alternate]
  | .forStatement => [.loopStart, .optionalChild "test", .optionalChild "update", .child "body"]
  | .forInStatement => [.child "right", .text "left", .child "body"]
  | .switchStatement => [.child "discriminant", .clauses "cases"]
  | .switchCase => [.optionalChild "test", .optionalStatements "consequent"]
  | .breakStatement => []
  | .moduleDeclaration => [.present "id", .moduleBody]
  | .exportDeclaration => [.exported]
  | .importDeclaration => [.optionalChildren "specifiers"]
  | .importSpecifier => [.importedModule, .importedBinding]

def Construct.tasks (options : Options) (node : Node) (position : Position)
    (construct : Construct) : List Task :=
  construct.parts.flatMap fun part => part.tasks options node position

theorem Construct.mem_byKind {kind : String} {construct : Construct}
    (known : Construct.ofKind? kind = some construct) : (kind, construct) ∈ Construct.byKind := by
  obtain ⟨before, after, same, -⟩ := List.lookup_eq_some_iff.mp known
  rw [same]
  exact List.mem_append_right _ (List.mem_cons_self ..)

/-- The kind of a construct that has one kind only. -/
theorem Construct.kind_eq {kind only : String} {construct : Construct}
    (known : Construct.ofKind? kind = some construct)
    (table : ∀ entry ∈ Construct.byKind, entry.2 = construct → entry.1 = only) : kind = only :=
  table _ (Construct.mem_byKind known) rfl

/-- The tasks of a node. A kind without a rule is reported. -/
def Node.tasks (options : Options) (node : Node) (position : Position) : List Task :=
  match Construct.ofKind? node.kind with
  | none => [.report (Diagnostic.unsupported node "")]
  | some construct => construct.tasks options node position

theorem Node.tasks_eq {node : Node} {construct : Construct}
    (known : Construct.ofKind? node.kind = some construct) (options : Options)
    (position : Position) :
    node.tasks options position = construct.tasks options node position := by
  unfold Node.tasks
  rw [known]

/-- A task of a node is one of a part of its construct, or the report of a kind without a
rule. -/
theorem Node.part_of_task {options : Options} {node : Node} {position : Position} {task : Task}
    (among : task ∈ node.tasks options position) :
    task = .report (Diagnostic.unsupported node "") ∨
      ∃ construct, Construct.ofKind? node.kind = some construct ∧
        ∃ part ∈ construct.parts, task ∈ part.tasks options node position := by
  unfold Node.tasks at among
  split at among
  · exact .inl (List.mem_singleton.mp among)
  · next construct known => exact .inr ⟨construct, known, List.mem_flatMap.mp among⟩

def Node.substitute? (options : Options) (node : Node) (position : Position) : Option Substitute :=
  match Construct.ofKind? node.kind with
  | some .call =>
      match (node.field "callee").node?.map (Rule.methodSubstitute? options) with
      | some (.ok substitute) => substitute
      | _ => none
  | some .member =>
      match Rule.propertySubstitute? options node position with
      | .ok substitute => substitute
      | .error _ => none
  | _ => none

section Substitutes

variable {options : Options} {node : Node} {position : Position} {found : Option Substitute}

theorem Node.substitute?_of_call (known : Construct.ofKind? node.kind = some .call) {called : Node}
    (held : node.field "callee" = .node called)
    (asked : Rule.methodSubstitute? options called = .ok found) :
    node.substitute? options position = found := by
  unfold Node.substitute?
  simp only [known, held, Value.node?, Option.map_some, asked]

theorem Node.substitute?_of_member (known : Construct.ofKind? node.kind = some .member)
    (asked : Rule.propertySubstitute? options node position = .ok found) :
    node.substitute? options position = found := by
  unfold Node.substitute?
  simp only [known, asked]

/-- Calls and accesses only have a substitute. -/
theorem Node.known_of_substitute? (asked : (node.substitute? options position).isSome = true) :
    Construct.ofKind? node.kind = some .call ∨ Construct.ofKind? node.kind = some .member := by
  unfold Node.substitute? at asked
  split at asked
  · next known => exact .inl known
  · next known => exact .inr known
  · cases asked

end Substitutes

/-! ## Properties of all tasks -/

namespace Task

variable {P : Task → Prop} {node : Node} {field : String}

theorem visit_mem_wanting_iff {fits : Bool} {tasks : List Task} {source : Source} {value : Value}
    {position : Position} :
    .visit source value position ∈ wanting fits tasks ↔ .visit source value position ∈ tasks := by
  unfold wanting
  split
  · rfl
  · simp

theorem forall_wanting {fits : Bool} {tasks : List Task}
    (other : fits = false → P (.stop (.crash .notAName)))
    (each : ∀ task ∈ tasks, P task) : ∀ task ∈ wanting fits tasks, P task := by
  unfold wanting
  split
  · exact each
  · next unfit =>
      exact List.forall_mem_append.mpr
        ⟨each, List.forall_mem_singleton.mpr (other (Bool.eq_false_iff.mpr unfit))⟩

theorem forall_needed {next : Value → List Task}
    (absent : node.field? field = none → P (.stop (.missing (node.missing field))))
    (present : ∀ value, node.field? field = some value → ∀ task ∈ next value, P task) :
    ∀ task ∈ needed node field next, P task := by
  unfold needed Node.require
  cases found : node.field? field with
  | none => exact List.forall_mem_singleton.mpr (absent found)
  | some value => exact present value found

theorem forall_optional {next : Value → List Task}
    (present : ∀ value, node.field? field = some value → ∀ task ∈ next value, P task) :
    ∀ task ∈ optional node field next, P task := by
  unfold optional
  cases found : node.field? field with
  | none => exact List.forall_mem_nil _
  | some value => exact present value found

theorem forall_shaped {α : Type} {result : Except Crash α} {next : α → List Task}
    (failed : ∀ crash, result = .error crash → P (.stop (.crash crash)))
    (found : ∀ value, result = .ok value → ∀ task ∈ next value, P task) :
    ∀ task ∈ shaped result next, P task := by
  unfold shaped
  cases result with
  | error crash => exact List.forall_mem_singleton.mpr (failed crash rfl)
  | ok value => exact found value rfl

theorem forall_texts {source : Nat → Source} {position : Position} {values : List Value}
    (each : ∀ index value, values[index]? = some value →
      ∀ task ∈ wanting value.form.isText [.visit (source index) value position], P task) :
    ∀ task ∈ texts source position values, P task :=
  List.forall_mem_flatMap.mpr fun entry held =>
    each entry.2 entry.1 (List.mem_zipIdx_iff_getElem?.mp held)

theorem forall_items {source : Nat → Source} {position : Nat → Position} {skips : Bool}
    {values : List Value}
    (each : ∀ index value, values[index]? = some value → (skips && value.isNull) = false →
      P (.visit (source index) value (position index))) :
    ∀ task ∈ items source position skips values, P task := by
  refine List.forall_mem_flatMap.mpr fun entry held => ?_
  have place := List.mem_zipIdx_iff_getElem?.mp held
  by_cases skipped : (skips && entry.1.isNull) = true
  · rw [if_pos skipped]
    exact List.forall_mem_nil _
  · rw [if_neg skipped]
    exact List.forall_mem_singleton.mpr (each _ _ place (Bool.eq_false_iff.mpr skipped))

theorem forall_check {α : Type} {result : Except Crash α} {next : α → List Task}
    (rest : ∀ found, result = .ok found → ∀ task ∈ next found, ∃ crash, task = .stop (.crash crash)) :
    ∀ task ∈ shaped result next, ∃ crash, task = .stop (.crash crash) :=
  forall_shaped (fun crash _ => ⟨crash, rfl⟩) rest

/-- Whatever the output of the callee is, the arguments come first, and nothing but a crash comes
after them. -/
theorem continued_eq (node : Node) (position : Position) (callee : Value) :
    ∃ rest, (∀ task ∈ rest, ∃ crash, task = .stop (.crash crash)) ∧
      continued node position callee =
        wanting (node.field "arguments").itemsYieldText (arguments node) ++ rest := by
  simp only [continued]
  split
  · exact ⟨_, forall_check fun _ _ => List.forall_mem_nil _, rfl⟩
  · split
    · refine ⟨_, forall_check fun _ _ => ?_, rfl⟩
      split
      · exact List.forall_mem_singleton.mpr ⟨_, rfl⟩
      · exact List.forall_mem_nil _
    · exact ⟨_, List.forall_mem_singleton.mpr ⟨_, rfl⟩, rfl⟩

end Task

/-! ## Doing the tasks -/

/-- The events of an emission and whether it fails. -/
def Emission.outline {ε α : Type} (emission : Emission ε α) : Emission ε Unit :=
  ⟨emission.events, emission.outcome.map fun _ => ()⟩

def Task.perform (render : Renderer) : Task → Emission Fault Unit
  | .visit _ value position => (Rule.child render value position).outline
  | .enter function => Emission.signal (.entered function)
  | .report diagnostic => Emission.report diagnostic
  | .stop fault => .fail fault

def perform (render : Renderer) : List Task → Emission Fault Unit
  | [] => .done ()
  | task :: rest => (task.perform render).andThen fun _ => perform render rest

theorem perform_append (render : Renderer) (first second : List Task) :
    perform render (first ++ second) =
      (perform render first).andThen fun _ => perform render second := by
  induction first with
  | nil => simp [perform]
  | cons task rest ih => simp only [List.cons_append, perform, ih, Emission.andThen_assoc]

@[simp]
theorem perform_stop (render : Renderer) (fault : Fault) (rest : List Task) :
    perform render (.stop fault :: rest) = .fail fault := rfl

/-- A computation follows an agenda when it has the events and the failure of the tasks. -/
def Emission.Follows {α : Type} (emission : Emission Fault α) (render : Renderer)
    (tasks : List Task) : Prop :=
  emission.outline = perform render tasks

namespace Emission.Follows

variable {α β : Type} {render : Renderer}

theorem done (result : α) : (Emission.done result : Emission Fault α).Follows render [] := rfl

theorem fail (fault : Fault) : (Emission.fail fault : Emission Fault α).Follows render [.stop fault] :=
  rfl

/-- One computation after another follows one agenda after the other. -/
theorem andThen {first : Emission Fault α} {next : α → Emission Fault β} {tasks rest : List Task}
    (start : first.Follows render tasks)
    (follow : ∀ result, first.outcome = .ok result → (next result).Follows render rest) :
    (first.andThen next).Follows render (tasks ++ rest) := by
  unfold Follows at *
  rw [perform_append, ← start]
  obtain ⟨events, outcome⟩ := first
  cases outcome with
  | error fault => rfl
  | ok result =>
      have tail := follow result rfl
      simp only [Emission.andThen, Emission.outline, Except.map] at tail ⊢
      rw [← tail]

theorem visit (source : Source) (value : Value) (position : Position) :
    (Rule.child render value position).Follows render [.visit source value position] :=
  (Emission.andThen_done _).symm

/-- A result made of the result of another computation. -/
theorem map {emission : Emission Fault α} {tasks : List Task} (follows : emission.Follows render tasks)
    (wrap : α → β) : (emission.andThen fun result => .done (wrap result)).Follows render tasks := by
  have ended := andThen follows fun result _ => Follows.done (wrap result)
  rw [List.append_nil] at ended
  exact ended

end Emission.Follows

end PhpRendering
