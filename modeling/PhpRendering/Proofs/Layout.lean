import PhpRendering.Proofs.Agenda

/-!
# Layouts of rules

An agenda says what a rule does, a layout also what it writes. A layout is made of
words and of slots for the values that are rendered, one after another. It does not
depend on the texts that come into its slots: that is why a rule cannot look into the
text of a child, apart from its end, and apart from lists that a call continues.
-/

namespace PhpRendering

inductive Layout where
  | word (text : String)
  | visit (source : Source) (value : Value) (position : Position)
  | enter (function : Node)
  | report (diagnostic : Diagnostic)
  | stop (fault : Fault)
  /-- one layout after the other -/
  | next (first second : Layout)
  /-- what is done first is written last -/
  | swap (first second : Layout)
  /-- done without being written -/
  | unwritten (layout : Layout)
  /-- written without its terminator -/
  | clause (layout : Layout)
  /-- written so that it ends its line -/
  | line (layout : Layout)
  /-- written as a change of what it is -/
  | changed (change : String → String) (layout : Layout)

def ImportSource.moduleName : ImportSource → String
  | .named moduleName => moduleName
  | _ => ""

namespace Layout

/-! ## Ways to lay out -/

abbrev empty : Layout := .word ""

def joined : List Layout → Layout
  | [] => empty
  | first :: rest => .next first (joined rest)

def separatedBy (separator : String) : List Layout → Layout
  | [] => empty
  | [only] => only
  | first :: rest => .next first (.next (.word separator) (separatedBy separator rest))

/-- The first of some layouts, or a word when there is none. The others are done only. -/
def firstOr (absent : String) : List Layout → Layout
  | [] => .word absent
  | first :: rest => .next first (.unwritten (joined rest))

def needed (node : Node) (field : String) (next : Value → Layout) : Layout :=
  match node.require field with
  | .ok value => next value
  | .error missing => .stop (.missing missing)

def optional (node : Node) (field : String) (absent : Layout) (next : Value → Layout) : Layout :=
  match node.field? field with
  | some value => next value
  | none => absent

def shaped {α : Type} (result : Except Crash α) (next : α → Layout) : Layout :=
  match result with
  | .ok found => next found
  | .error crash => .stop (.crash crash)

def wanting (fits : Bool) (layout : Layout) : Layout :=
  if fits then layout else .next layout (.stop (.crash .notAName))

def present (node : Node) (field : String) : Layout :=
  needed node field fun _ => empty

def child (node : Node) (field : String) : Layout :=
  needed node field fun value => .visit (.field field) value (.within node)

def text (node : Node) (field : String) : Layout :=
  needed node field fun value => wanting value.form.isText (.visit (.field field) value (.within node))

/-- A slot for a required field to which the node may write. -/
def side (node : Node) (field : String) : Layout :=
  needed node field fun value => .visit (.field field) value (.of node (node.occurrence field))

def optionalChild (node : Node) (field absent before after : String) : Layout :=
  optional node field (.word absent) fun value =>
    joined [.word before, .visit (.field field) value (.within node), .word after]

def optionalText (node : Node) (field absent before : String) : Layout :=
  optional node field (.word absent) fun value =>
    .next (.word before) (wanting value.form.isText (.visit (.field field) value (.within node)))

def slots (source : Nat → Source) (position : Position) (values : List Value) : List Layout :=
  values.zipIdx.map fun entry => .visit (source entry.2) entry.1 position

def optionalItems (node : Node) (field : String) (together : List Layout → Layout) : Layout :=
  shaped (node.optionalItems field) fun items =>
    together (slots (.item field) (.within node) items)

def textSlots (source : Nat → Source) (position : Position) (values : List Value) : List Layout :=
  values.zipIdx.map fun entry => wanting entry.1.form.isText (.visit (source entry.2) entry.1 position)

def statements (parent : Node) (field : String) (list : Value) : Layout :=
  wanting list.itemsYieldText <| shaped list.items fun items =>
    joined (items.zipIdx.map fun entry =>
      if entry.1.isNull then empty
      else
        .visit (.item field entry.2) entry.1
          { Position.within parent with isLast := entry.2 + 1 == items.length })

def receiver (source : Source) (member : Node) : Layout :=
  needed member "object" fun object => .visit source object (.within member)

def callReceiver (call : Node) : Layout :=
  needed call "callee" fun callee => shaped callee.asNode (receiver .receiver)

def substituted (node : Node) : Substitute → Layout
  | .receiverFirst function =>
      wanting node.operandsYieldText <| joined [.word (function ++ "("), callReceiver node,
        optionalItems node "arguments" fun operands =>
          joined (operands.map fun operand => .next (.word ", ") operand),
        .word ")"]
  | .receiverLast function =>
      wanting node.operandsYieldText <| joined [.word (function ++ "("),
        optionalItems node "arguments" fun operands =>
          joined (operands.map fun operand => .next operand (.word ", ")),
        callReceiver node, .word ")"]
  | .propertyFunction function =>
      joined [.word (function ++ "("), receiver (.field "object") node, .word ")"]
  | .charAt =>
      .swap (joined [.word ", ", optionalItems node "arguments" (firstOr "0"), .word ", 1)"])
        (joined [.word "substr(", callReceiver node])
  | .constant text => .word text

def arguments (node : Node) : Layout :=
  wanting (node.field "arguments").itemsYieldText (optionalItems node "arguments" (separatedBy ", "))

/-- The layout of a call without a substitute. The output of the callee is continued by
the arguments; a list takes in their letters. -/
def continued (node : Node) (position : Position) (callee : Value) : Layout :=
  let function : Layout :=
    .visit (.field "callee") callee { Position.within node with isCallee := true }
  match callee.form with
  | .text =>
      joined [function, .word "(", arguments node, .word ")",
        shaped position.checkParent fun _ => empty]
  | .list isEmpty =>
      joined [.changed (Text.opened (!isEmpty)) function,
        .changed Text.asItems (joined [.word "(", arguments node, .word ")"]),
        shaped position.checkParent fun _ =>
          if position.inStatement then .stop (.crash .notAName) else empty]
  | _ => joined [function, arguments node, .stop (.crash .notAName)]

def call (options : Options) (node : Node) (position : Position) : Layout :=
  needed node "callee" fun callee =>
    shaped callee.asNode fun called =>
      shaped (Rule.methodSubstitute? options called) fun
        | some substitute => substituted node substitute
        | none => continued node position callee

def access (node : Node) (position : Position) (object property : Value) : Layout :=
  .next (.visit (.field "object") object (Rule.objectPosition node object)) <|
    if node.flag "computed" then
      joined [.word "[", .visit (.field "property") property (.within node), .word "]"]
    else
      .next (.word (position.connective.getD (Connective.between object property)).text)
        (.visit (.field "property") property
          { Position.within node with isMemberProperty := true, isStatic := property.isStatic })

def member (options : Options) (node : Node) (position : Position) : Layout :=
  needed node "object" fun object =>
    needed node "property" fun property =>
      shaped (Rule.propertySubstitute? options node position) fun
        | some substitute => substituted node substitute
        | none => access node position object property

def augend (node : Node) : Layout :=
  match (node.field "argument").form, node.field "operator" with
  | .text, _ => child node "argument"
  | .list isEmpty, .list more =>
      .changed (Text.opened (!isEmpty && !more.isEmpty)) (child node "argument")
  | _, _ => .unwritten (child node "argument")

/-- The layout of an update: the operator is added to the argument. -/
def update (node : Node) : Layout :=
  .next (augend node) <|
    needed node "operator" fun operator =>
      shaped ((node.field "argument").form.plus operator) fun sum => .word (sum.ending operator)

def parameter (function : Node) (param : Value) (index : Nat) : Layout :=
  shaped ((Rule.defaults function).itemAt index) fun default =>
    shaped param.asNode fun node =>
      if node.kind = "AssignmentPattern" then
        needed node "left" fun target =>
          needed node "right" fun default =>
            .visit (.pattern index) (.node (Rule.defaultAssignment function target default))
              (.within function)
      else if default.isNull then .visit (.item "params" index) param (.within function)
      else
        .visit (.defaulted index) (.node (Rule.defaultAssignment function param default))
          (.within function)

def parameterTexts (function : Node) : Layout :=
  wanting function.parametersYieldText empty

def parameters (function : Node) : Layout :=
  shaped (function.optionalItems "params") fun params =>
    separatedBy ", " (params.zipIdx.map fun entry => parameter function entry.1 entry.2)

def superclass (node : Node) : Layout :=
  optional node "superClass" empty fun value =>
    shaped value.asNode fun parent =>
      if parent.kind = "Identifier" then .word (" extends " ++ parent.name)
      else .next (.word " extends ") (.visit (.field "superClass") value (.within node))

/-- The report of a form that has no rendering, or the layout of any other form. -/
def unlessUnsupported (node : Node) (next : Layout) : Layout :=
  match Rule.unsupportedForm? node with
  | some feature => .report (Diagnostic.unsupported node feature)
  | none => next

def method (options : Options) (node : Node) (position : Position) : Layout :=
  needed node "key" fun key =>
    needed node "value" fun value =>
      unlessUnsupported node <|
        shaped (Rule.methodFunction value) fun function =>
          joined [.word (if node.flag "static" then "public static " else "public "),
            .visit .method (.node (Rule.asDeclaration function
              (Naming.methodName options.constructorName key.name))) (.within node),
            .word (if position.isLast then "" else "\n")]

def property (node : Node) : Layout :=
  needed node "key" fun key =>
    needed node "value" fun value =>
      unlessUnsupported node <|
        shaped key.asNode fun key =>
          shaped (Rule.keyText key) fun name =>
            .next (.word (Text.doubleQuoted name ++ " => "))
              (.visit (.field "value") value (.within node))

def alternate (node : Node) : Layout :=
  optional node "alternate" empty fun value =>
    shaped value.asNode fun branch =>
      let slot := wanting value.form.isText (.visit (.field "alternate") value (.within node))
      if branch.kind = "BlockStatement" then joined [.word " else \x7b", slot, .word "\x7d"]
      else .next (.word " else ") slot

def loopInit (loop : Node) (init : Value) : Layout :=
  shaped init.asNode fun start =>
    if start.kind = "VariableDeclaration" then
      needed start "declarations" fun declarations =>
        shaped declarations.items fun items =>
          separatedBy ", " ((textSlots .declarator (.within start) items).map .clause)
    else .clause (wanting init.form.isText (.visit (.field "init") init (.within loop)))

def moduleBody (node : Node) : Value → Layout
  | .list items => statements node "body" (.list items)
  | body => .visit (.field "body") body (.within node)

def exported (node : Node) : Layout :=
  match node.field? "declaration" with
  | none => needed node "specifiers" (statements node "specifiers")
  | some declaration =>
      wanting declaration.form.isText <|
        .next (.visit (.field "declaration") declaration (.within node))
          (shaped declaration.asNode fun _ => empty)

def importedModule (node : Node) (position : Position) : Layout :=
  match position.importSource with
  | .noParent => .stop (.missing (node.missing "source"))
  | .unnamed missing => .stop (.missing missing)
  | .unusable => .stop (.crash .notANode)
  | .named _ => empty

def useStatement (node : Node) (position : Position) (binding : Value) : Layout :=
  .word ("use " ++ Naming.qualifiedImport position.importSource.moduleName binding.name ++
    Rule.aliasClause binding.name (Rule.localBinding? node) ++ terminator)

def imported (node : Node) (position : Position) : Layout :=
  .next (importedModule node position)
    (optional node "id" (needed node "imported" (useStatement node position))
      (useStatement node position))

end Layout

def Construct.layout (options : Options) (node : Node) (position : Position) : Construct → Layout
  | .statementList => .needed node "body" (.statements node "body")
  | .variableDeclaration =>
      .needed node "declarations" fun list =>
        .wanting list.itemsYieldText <| .shaped list.items fun items =>
          .joined (Layout.slots (.item "declarations") (.within node) items)
  | .variableDeclarator => .next (.child node "id") (.optionalChild node "init" "" " = " "")
  | .identifier =>
      if node.name = "" then .stop (.missing (node.missing "name"))
      else if position.isStatic || position.isCallee || position.isMemberProperty then .word node.name
      else .word (Naming.variableName node.name)
  | .punctuator => .needed node "value" fun value => .word value.shown
  | .literal =>
      .optional node "raw" (.word (Rule.literalText (node.field "value"))) fun raw => .word raw.shown
  | .selfReference => .word Naming.selfReference
  | .binary =>
      .joined [.side node "left", .word (" " ++ (node.field "operator").shown ++ " "),
        .side node "right", .present node "operator"]
  | .update => .update node
  | .expressionStatement => .text node "expression"
  | .call => .call options node position
  | .construction =>
      .next (.word "new ") (.wanting (Rule.asCall node).form.isText
        (.visit .copy (.node (Rule.asCall node)) (.within node)))
  | .member => .member options node position
  | .functionDeclaration =>
      .joined [.word ("function " ++ (node.field "id").name ++ "("), .parameters node,
        .word ")", .present node "body", .enter node, .parameterTexts node, .word " \x7b\n",
        .text node "body", .word "\x7d\n"]
  | .functionExpression =>
      .visit .copy (.node (Rule.asDeclaration node (node.field "id").name)) position
  | .classDeclaration =>
      .joined [.present node "id", .word ("class " ++ (node.field "id").name), .superclass node,
        .word "\n\x7b\n", .text node "body", .word "\n\x7d\n"]
  | .methodDefinition => .method options node position
  | .objectLiteral =>
      .joined [.word "array(",
        .wanting (node.field "properties").itemsYieldText
          (.optionalItems node "properties" (.separatedBy ", ")),
        .word ")"]
  | .arrayLiteral =>
      .joined [.word "array(",
        .wanting (node.field "elements").itemsYieldText <|
          .shaped (node.optionalItems "elements") fun items =>
            .separatedBy ", " (items.zipIdx.map fun entry =>
              if entry.1.isNull then .word "null"
              else .visit (.item "elements" entry.2) entry.1 (.within node)),
        .word ")"]
  | .property => .property node
  | .returnStatement => .optionalText node "argument" "return" "return "
  | .ifStatement =>
      .line (.joined [.word "if (", .child node "test", .word ") \x7b\n", .text node "consequent",
        .word "\x7d", .alternate node])
  | .forStatement =>
      .joined [.word "for (", .optional node "init" .empty (.loopInit node), .word "; ",
        .optionalChild node "test" "" "" "", .word "; ", .optionalChild node "update" "" "" "",
        .word ")", .word " \x7b\n", .child node "body", .word "\x7d\n"]
  | .forInStatement =>
      .joined [.word "foreach (", .child node "right", .word " as ", .clause (.text node "left"),
        .word (" => " ++ Naming.discardedValue ++ ")"), .word " \x7b\n", .child node "body",
        .word "\x7d\n"]
  | .switchStatement =>
      .joined [.word "switch (", .child node "discriminant", .word ") \x7b\n",
        .shaped (node.optionalItems "cases") fun cases =>
          .joined ((Layout.textSlots (.item "cases") (.within node) cases).map fun clause =>
            .next clause (.word "\n")),
        .word "\x7d\n"]
  | .switchCase =>
      .next (.optionalChild node "test" "default:\n" "case " ":\n")
        (.statements node "consequent"
          (if node.flag "consequent" then node.field "consequent" else .list []))
  | .breakStatement => .word "break"
  | .moduleDeclaration =>
      .joined [.present node "id",
        .word ("namespace " ++ Naming.moduleNamespace (node.field "id").name ++ ";\n"),
        .needed node "body" (.moduleBody node)]
  | .exportDeclaration => .exported node
  | .importDeclaration =>
      .wanting (node.field "specifiers").itemsYieldText (.optionalItems node "specifiers" .joined)
  | .importSpecifier => .imported node position

def Construct.owesTerminator (options : Options) (node : Node) (position : Position) :
    Construct → Bool
  | .variableDeclarator => node.has "init"
  | .expressionStatement => true
  | .returnStatement => true
  | .breakStatement => true
  | .call =>
      match (node.field "callee").node?.map (Rule.methodSubstitute? options) with
      | some (.ok none) => position.inStatement
      | _ => false
  | .exportDeclaration =>
      match node.field "declaration" with
      | .node exported => !Rule.isDeclarationKind exported.kind
      | _ => false
  | _ => false

/-- The layout of a node. A kind without a rule is reported. -/
def Node.layout (options : Options) (node : Node) (position : Position) : Layout :=
  match Construct.ofKind? node.kind with
  | none => .report (Diagnostic.unsupported node "")
  | some construct => construct.layout options node position

def Node.owesTerminator (options : Options) (node : Node) (position : Position) : Bool :=
  match Construct.ofKind? node.kind with
  | none => false
  | some construct => construct.owesTerminator options node position

namespace Layout

variable {node : Node}

/-- What follows the reading of a required field matters only where the field is there. -/
theorem needed_congr {field : String} {next other : Value → Layout}
    (alike : ∀ value, node.field? field = some value → next value = other value) :
    needed node field next = needed node field other := by
  unfold needed Node.require
  cases found : node.field? field with
  | none => rfl
  | some value => exact alike value found

/-! ## Outputs that are texts -/

theorem continued_of_form {position : Position} {callee : Value} (form : callee.form = .text) :
    continued node position callee =
      joined [.visit (.field "callee") callee { Position.within node with isCallee := true },
        .word "(", arguments node, .word ")", shaped position.checkParent fun _ => empty] := by
  unfold continued
  rw [form]

/-- An operator that is added to a text is a text. -/
theorem update_of_form (form : (node.field "argument").form = .text) :
    update node =
      .next (child node "argument")
        (needed node "operator" fun operator =>
          match operator.text? with
          | some mark => .word mark
          | none => .stop (.crash .notAName)) := by
  unfold update augend
  rw [form]
  congr 2
  funext operator
  cases operator with
  | scalar scalar => cases scalar <;> rfl
  | _ => rfl

/-! ## What is done and what is written -/

@[simp]
def tasks : Layout → List Task
  | .word _ => []
  | .visit source value position => [.visit source value position]
  | .enter function => [.enter function]
  | .report diagnostic => [.report diagnostic]
  | .stop fault => [.stop fault]
  | .next first second => first.tasks ++ second.tasks
  | .swap first second => first.tasks ++ second.tasks
  | .unwritten layout => layout.tasks
  | .clause layout => layout.tasks
  | .line layout => layout.tasks
  | .changed _ layout => layout.tasks

def write (render : Renderer) : Layout → Emission Fault String
  | .word text => .done text
  | .visit _ value position => Rule.child render value position
  | .enter function => (Emission.signal (.entered function)).andThen fun _ => .done ""
  | .report diagnostic => (Emission.report diagnostic).andThen fun _ => .done ""
  | .stop fault => .fail fault
  | .next first second =>
      (first.write render).andThen fun before =>
        (second.write render).andThen fun after => .done (before ++ after)
  | .swap first second =>
      (first.write render).andThen fun after =>
        (second.write render).andThen fun before => .done (before ++ after)
  | .unwritten layout => (layout.write render).andThen fun _ => .done ""
  | .clause layout => (layout.write render).andThen fun text => .done (withoutTerminator text)
  | .line layout => (layout.write render).andThen fun text => .done (endLine text)
  | .changed change layout => (layout.write render).andThen fun text => .done (change text)

def closed (render : Renderer) (owesTerminator : Bool) (layout : Layout) : Emission Fault String :=
  (layout.write render).andThen fun text => .done (Fragment.terminated ⟨text, owesTerminator⟩)

end Layout

end PhpRendering
