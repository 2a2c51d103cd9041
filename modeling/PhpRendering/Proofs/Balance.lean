import PhpRendering.Proofs.Composition
import PhpRendering.Proofs.PlainTree
import PhpRendering.Proofs.Requirement
import PhpRendering.Proofs.Safety
import PhpRendering.Proofs.Written

/-!
# Balanced brackets

A layout opens and closes brackets with its words. When all its slots are filled with
balanced texts, the brackets that are open after it depend on the words alone. Every
layout of a plain node closes what it opens, so every rendered text is balanced.
-/

namespace PhpRendering

/-- More brackets that are open further out make no difference. -/
theorem stillOpen_frame {before after : List Bracket} {word : List Mark}
    (read : stillOpen before word = some after) (stack : List Bracket) :
    stillOpen (before ++ stack) word = some (after ++ stack) := by
  induction word generalizing before with
  | nil =>
      cases read
      rfl
  | cons mark rest ih =>
      cases mark with
      | opening bracket => exact ih read
      | closing bracket =>
          cases before with
          | nil => cases read
          | cons innermost before =>
              by_cases same : bracket = innermost
              · simp only [stillOpen, if_pos same] at read
                simp only [List.cons_append, stillOpen, if_pos same]
                exact ih read
              · simp only [stillOpen, if_neg same] at read
                cases read

namespace Text

theorem isBalanced_of_marks {text : String} (none : marks text = []) : IsBalanced text := by
  unfold IsBalanced
  rw [none]
  exact .nil

/-- More text without brackets makes no difference. -/
theorem IsBalanced.append_left {first second : String} (balanced : IsBalanced second)
    (none : marks first = []) : IsBalanced (first ++ second) := by
  unfold IsBalanced
  rw [marks_append, none]
  exact balanced

theorem IsBalanced.append_right {first second : String} (balanced : IsBalanced first)
    (none : marks second = []) : IsBalanced (first ++ second) := by
  unfold IsBalanced
  rw [marks_append, none, List.append_nil]
  exact balanced

theorem IsPlain.isBalanced {text : String} (plain : IsPlain (Avoids brackets) text) :
    IsBalanced text := by
  rcases plain with avoids | rfl | rfl
  · exact isBalanced_of_marks avoids.marks_eq_nil
  · exact .pair .square .nil
  · exact .pair .curly .nil

end Text

namespace Layout

/-! ## Brackets of layouts -/

/-- The brackets that are open after a layout whose slots hold balanced texts, unless
something is changed in it. -/
def stillOpen : Layout → List Bracket → Option (List Bracket)
  | .word text, stack => PhpRendering.stillOpen stack (Text.marks text)
  | .next first second, stack => (first.stillOpen stack).bind second.stillOpen
  | .swap first second, stack => (second.stillOpen stack).bind first.stillOpen
  | .clause layout, stack => layout.stillOpen stack
  | .line layout, stack => layout.stillOpen stack
  | .changed _ _, _ => none
  | _, stack => some stack

/-- Balanced texts in the slots leave the brackets to the words. -/
theorem Writes.stillOpen {render : Renderer} {layout : Layout} {text : String}
    (writes : layout.Writes render text)
    (slots : ∀ source value place, .visit source value place ∈ layout.tasks →
      ∀ slot, (render value place).outcome = .ok slot → Text.IsBalanced slot)
    {stack left : List Bracket} (read : layout.stillOpen stack = some left) :
    PhpRendering.stillOpen stack (Text.marks text) = some left := by
  induction writes generalizing stack left with
  | word text => exact read
  | visit rendered =>
      cases read
      exact (slots _ _ _ (List.mem_singleton_self _) _ rendered).stillOpen_eq stack
  | enter function => exact read
  | report diagnostic => exact read
  | next _ _ before after =>
      obtain ⟨middle, one, other⟩ := Option.bind_eq_some_iff.mp read
      rw [Text.marks_append, stillOpen_append, before (fun source value place held =>
        slots source value place (List.mem_append_left _ held)) one]
      exact after (fun source value place held =>
        slots source value place (List.mem_append_right _ held)) other
  | swap _ _ after before =>
      obtain ⟨middle, one, other⟩ := Option.bind_eq_some_iff.mp read
      rw [Text.marks_append, stillOpen_append, before (fun source value place held =>
        slots source value place (List.mem_append_right _ held)) one]
      exact after (fun source value place held =>
        slots source value place (List.mem_append_left _ held)) other
  | unwritten _ _ => exact read
  | clause _ ih => rw [Text.marks_withoutTerminator, ih slots read]
  | line _ ih => rw [Text.marks_endLine, ih slots read]
  | changed => cases read

/-- A layout after which other brackets are innermost than before it. -/
def Turns (before after : List Bracket) (layout : Layout) : Prop :=
  ∀ stack, layout.stillOpen (before ++ stack) = some (after ++ stack)

/-- A layout that closes all brackets that it opens, and no others. -/
def IsBalanced (layout : Layout) : Prop :=
  ∀ stack, layout.stillOpen stack = some stack

namespace Turns

variable {first middle last : List Bracket}

theorem word {text : String} (read : PhpRendering.stillOpen first (Text.marks text) = some last) :
    (Layout.word text).Turns first last :=
  fun stack => stillOpen_frame read stack

theorem nil : (joined []).Turns first first :=
  fun _ => rfl

theorem cons {layout : Layout} {rest : List Layout} (head : layout.Turns first middle)
    (tail : (joined rest).Turns middle last) : (joined (layout :: rest)).Turns first last := by
  intro stack
  rw [joined, Layout.stillOpen, head stack]
  exact tail stack

/-- A word that opens one bracket more than it closes. -/
theorem opening (bracket : Bracket) {text : String} {rest : List Layout}
    (read : PhpRendering.stillOpen [] (Text.marks text) = some [bracket])
    (tail : (joined rest).Turns (bracket :: first) last) :
    (joined (.word text :: rest)).Turns first last :=
  have head : (Layout.word text).Turns first (bracket :: first) :=
    fun stack => stillOpen_frame read (first ++ stack)
  cons head tail

/-- A layout that is balanced may stand anywhere. -/
theorem skip {layout : Layout} {rest : List Layout} (head : layout.IsBalanced)
    (tail : (joined rest).Turns first last) : (joined (layout :: rest)).Turns first last :=
  cons (fun stack => head (first ++ stack)) tail

theorem swap {one other : Layout} (early : other.Turns first middle)
    (late : one.Turns middle last) : (Layout.swap one other).Turns first last := by
  intro stack
  rw [Layout.stillOpen, early stack]
  exact late stack

theorem balanced {layout : Layout} (turns : layout.Turns [] []) : layout.IsBalanced :=
  turns

end Turns

namespace IsBalanced

theorem word {text : String} (balanced : Text.IsBalanced text) : (Layout.word text).IsBalanced :=
  balanced.stillOpen_eq

/-- A word without brackets. -/
theorem bare {text : String} (none : Text.marks text = []) : (Layout.word text).IsBalanced :=
  word (Text.isBalanced_of_marks none)

theorem avoiding {text : String} (avoids : Text.Avoids Text.brackets text) :
    (Layout.word text).IsBalanced :=
  bare avoids.marks_eq_nil

theorem plain {text : String} (plain : Text.IsPlain (Text.Avoids Text.brackets) text) :
    (Layout.word text).IsBalanced :=
  word plain.isBalanced

theorem comma : (Layout.word ", ").IsBalanced :=
  bare rfl

theorem next {first second : Layout} (before : first.IsBalanced) (after : second.IsBalanced) :
    (Layout.next first second).IsBalanced := by
  intro stack
  rw [Layout.stillOpen, before stack]
  exact after stack

end IsBalanced

/-- Balance goes through all ways to lay out. -/
theorem balance : Compositional IsBalanced where
  empty _ := rfl
  visit _ _ _ _ := rfl
  enter _ _ := rfl
  report _ _ := rfl
  stop _ _ := rfl
  next := IsBalanced.next
  swap before after := after.next before
  unwritten _ _ := rfl

end Layout

/-! ## Substitutes -/

def Substitute.text : Substitute → String
  | .receiverFirst function => function
  | .receiverLast function => function
  | .propertyFunction function => function
  | .charAt => "substr"
  | .constant text => text

structure Options.IsPlain (admits : String → Prop) (options : Options) : Prop where
  constructor : admits options.constructorName
  methods : ∀ entry ∈ options.substitutes.methods, admits entry.2.text
  properties : ∀ entry ∈ options.substitutes.properties, admits entry.2.text

theorem Options.IsPlain.mono {fewer admits : String → Prop} (more : ∀ {text}, fewer text → admits text)
    {options : Options} (plain : options.IsPlain fewer) : options.IsPlain admits :=
  ⟨more plain.constructor, fun entry listed => more (plain.methods entry listed),
    fun entry listed => more (plain.properties entry listed)⟩

namespace Layout

theorem Turns.function {name : String} (plain : Text.Avoids Text.brackets name) :
    (Layout.word (name ++ "(")).Turns [] [.round] := by
  refine .word ?_
  rw [Text.marks_append, plain.marks_eq_nil]
  rfl

theorem IsBalanced.substituted (node : Node) {substitute : Substitute}
    (plain : Text.Avoids Text.brackets substitute.text) :
    (substituted node substitute).IsBalanced := by
  have close : (Layout.word ")").Turns [.round] [] := .word rfl
  have receiver := balance.callReceiver node
  cases substitute with
  | receiverFirst function =>
      refine balance.wanting
        (Turns.cons (.function plain) (.skip receiver (.skip ?_ (.cons close .nil)))).balanced
      refine balance.optionalItems fun _ all => balance.joined ?_
      exact List.forall_mem_map.mpr fun operand inside =>
        IsBalanced.comma.next (all operand inside)
  | receiverLast function =>
      refine balance.wanting
        (Turns.cons (.function plain) (.skip ?_ (.skip receiver (.cons close .nil)))).balanced
      refine balance.optionalItems fun _ all => balance.joined ?_
      exact List.forall_mem_map.mpr fun operand inside =>
        (all operand inside).next .comma
  | propertyFunction function =>
      have object := balance.receiver (.field "object") node
      exact (Turns.cons (.function plain) (.skip object (.cons close .nil))).balanced
  | charAt =>
      have operands : (Layout.optionalItems node "arguments" (Layout.firstOr "0")).IsBalanced :=
        balance.optionalItems fun _ all => balance.firstOr (.bare rfl) all
      exact (Turns.swap (.opening .round rfl (.skip receiver .nil))
        (.skip .comma (.skip operands (.cons (.word rfl) .nil)))).balanced
  | constant text => exact .avoiding plain

/-! ## Layouts of constructs -/

variable {options : Options} {node : Node} {position : Position}

theorem IsBalanced.call (callee : (node.field "callee").form = .text)
    (methods : ∀ callee substitute, Rule.methodSubstitute? options callee = .ok (some substitute) →
      Text.Avoids Text.brackets substitute.text) :
    (call options node position).IsBalanced := by
  refine balance.needed fun function same => balance.shaped fun called _ =>
    balance.shaped fun found asked => ?_
  cases found with
  | some substitute => exact .substituted node (methods called substitute asked)
  | none =>
      have operands : (Layout.arguments node).IsBalanced :=
        balance.wanting (balance.optionalItems fun _ all => balance.separatedBy .comma all)
      rw [Node.field_of_field? same] at callee
      dsimp only
      rw [continued_of_form callee]
      have checked : (Layout.shaped position.checkParent fun _ => empty).IsBalanced :=
        balance.shaped fun _ _ => .bare rfl
      exact (Turns.skip (balance.visit _ _ _) (.opening .round rfl
        (.skip operands (.cons (.word rfl) (.skip checked .nil))))).balanced

theorem IsBalanced.member
    (properties : ∀ substitute,
      Rule.propertySubstitute? options node position = .ok (some substitute) →
      Text.Avoids Text.brackets substitute.text) :
    (member options node position).IsBalanced := by
  refine balance.needed fun object _ => balance.needed fun property _ =>
    balance.shaped fun found asked => ?_
  cases found with
  | some substitute => exact .substituted node (properties substitute asked)
  | none =>
      refine (balance.visit _ _ _).next ?_
      split
      · exact (Turns.opening .square rfl (.skip (balance.visit _ _ _)
          (.cons (.word rfl) .nil))).balanced
      · refine (IsBalanced.avoiding ?_).next (balance.visit _ _ _)
        cases position.connective.getD (Connective.between object property) <;> decide

theorem IsBalanced.superclass (tree : node.IsPlainTree (Text.Avoids Text.brackets)) :
    (superclass node).IsBalanced := by
  refine balance.optional (.bare rfl) fun value found => balance.shaped fun parent same => ?_
  split
  · have held := (Node.field_of_field? found).trans (Value.asNode_eq_ok same)
    exact .avoiding (Text.Avoids.append_iff.mpr
      ⟨by decide, (tree.child held).plain.name Text.bracketless⟩)
  · exact (IsBalanced.bare (by rfl)).next (balance.visit _ _ _)

theorem IsBalanced.method : (method options node position).IsBalanced := by
  refine balance.needed fun key _ => balance.needed fun value _ =>
    balance.unlessUnsupported (balance.shaped fun function _ => ?_)
  refine (Turns.skip (.bare ?_) (.skip (balance.visit _ _ _) (.skip (.bare ?_) .nil))).balanced
  · split <;> rfl
  · split <;> rfl

theorem IsBalanced.property (tree : node.IsPlainTree (Text.Avoids Text.brackets)) :
    (property node).IsBalanced := by
  refine balance.needed fun key found => balance.needed fun value _ =>
    balance.unlessUnsupported (balance.shaped fun bearer same =>
      balance.shaped fun name spelled => ?_)
  have held := (Node.field_of_field? found).trans (Value.asNode_eq_ok same)
  have quoted : Text.IsBalanced (Text.doubleQuoted name) := by
    rcases (tree.child held).plain.keyText Text.bracketless spelled with avoids | rfl | rfl
    · exact Text.isBalanced_of_marks (avoids.doubleQuoted Text.brackets_subset).marks_eq_nil
    · exact .pair .square .nil
    · exact .pair .curly .nil
  exact (IsBalanced.word (quoted.append_right (by rfl))).next (balance.visit _ _ _)

theorem IsBalanced.alternate : (alternate node).IsBalanced := by
  refine balance.optional (.bare rfl) fun value _ => balance.shaped fun branch _ => ?_
  have slot {fits : Bool} {source : Source} {place : Position} :
      (Layout.wanting fits (.visit source value place)).IsBalanced :=
    balance.wanting (balance.visit _ _ _)
  dsimp only
  split
  · exact (Turns.opening .curly rfl (.skip slot (.cons (.word rfl) .nil))).balanced
  · exact (IsBalanced.bare (by rfl)).next slot

theorem aliasClause_avoids {special : List Char} (few : special ⊆ Text.delimiters) (name : String)
    {binding : Option Value} (avoids : ∀ value, binding = some value →
      Text.Avoids special value.name) : Text.Avoids special (Rule.aliasClause name binding) := by
  unfold Rule.aliasClause
  split
  · next value =>
      split
      · exact List.forall_mem_nil _
      · exact Text.Avoids.append_iff.mpr ⟨Text.Avoids.mono (by decide) few, avoids value rfl⟩
  · exact List.forall_mem_nil _

theorem IsBalanced.useStatement (tree : node.IsPlainTree (Text.Avoids Text.brackets))
    (plain : position.HasPlainSource (Text.Avoids Text.brackets)) (field : String) :
    (useStatement node position (node.field field)).IsBalanced := by
  have moduleName : Text.Avoids Text.brackets position.importSource.moduleName := by
    cases source : position.importSource with
    | named moduleName => exact plain moduleName source
    | _ => exact List.forall_mem_nil _
  have binding (value : Value) (read : Rule.localBinding? node = some value) :
      Text.Avoids Text.brackets value.name := by
    unfold Rule.localBinding? at read
    split at read
    · next bearer held =>
        cases read
        exact (tree.child held).plain.name Text.bracketless
    · rw [← Node.field_of_field? read]
      exact tree.name Text.bracketless "local"
  refine .avoiding ?_
  simp only [Naming.qualifiedImport, Naming.moduleNamespace, Naming.namespaceSeparator, terminator,
    Text.Avoids.append_iff]
  exact ⟨⟨⟨by decide, ⟨⟨by decide, moduleName.capitalised Text.brackets_subset⟩, by decide⟩,
    tree.name Text.bracketless field⟩, aliasClause_avoids Text.brackets_subset _ binding⟩, by decide⟩

theorem IsBalanced.imported (tree : node.IsPlainTree (Text.Avoids Text.brackets))
    (plain : position.HasPlainSource (Text.Avoids Text.brackets)) :
    (imported node position).IsBalanced := by
  have use (field : String) (value : Value) (found : node.field? field = some value) :
      (Layout.useStatement node position value).IsBalanced := by
    rw [← Node.field_of_field? found]
    exact .useStatement tree plain field
  refine IsBalanced.next ?_ (balance.optional (balance.needed (use "imported")) (use "id"))
  unfold Layout.importedModule
  split <;> exact fun _ => rfl

end Layout

open Layout in
/-- The layout of a plain node closes all brackets that it opens. -/
theorem Construct.layout_isBalanced {options : Options}
    (names : options.IsPlain (Text.Avoids Text.brackets)) {node : Node} {construct : Construct}
    (known : Construct.ofKind? node.kind = some construct) (readable : node.Readable)
    (tree : node.IsPlainTree (Text.Avoids Text.brackets)) {position : Position}
    (plain : position.HasPlainSource (Text.Avoids Text.brackets)) :
    (construct.layout options node position).IsBalanced := by
  have round : (Layout.word ")").Turns [.round] [] := .word rfl
  have curly : (Layout.word "\x7d\n").Turns [.curly] [] := .word rfl
  have block : (Layout.word " \x7b\n").Turns [] [.curly] := .word rfl
  have turn : (Layout.word ") \x7b\n").Turns [.round] [.curly] := .word rfl
  cases construct with
  | statementList => exact balance.needed fun body _ => balance.statements node "body" body
  | variableDeclaration =>
      exact balance.needed fun list _ => balance.wanting (balance.shaped fun items _ =>
        balance.joined (balance.slots _ _ _))
  | variableDeclarator =>
      exact (balance.child node "id").next
        (balance.optionalChild (.bare rfl) (.bare rfl) (.bare rfl))
  | identifier =>
      simp only [Construct.layout]
      split
      · exact fun _ => rfl
      · split
        · exact .avoiding (tree.plain.name Text.bracketless)
        · exact .avoiding (Text.Avoids.append_iff.mpr ⟨by decide, tree.plain.name Text.bracketless⟩)
  | punctuator =>
      refine balance.needed fun value found => ?_
      rw [← Node.field_of_field? found]
      exact .plain (tree.plain.shown Text.bracketless known (by decide) (by decide))
  | literal =>
      refine balance.optional (.plain (tree.plain.literalText Text.bracketless known))
        fun raw found => ?_
      rw [← Node.field_of_field? found]
      exact .plain (tree.plain.shown Text.bracketless known (by decide) (by decide))
  | selfReference => exact .bare rfl
  | binary =>
      have operator : Text.IsBalanced (node.field "operator").shown :=
        (tree.plain.shown Text.bracketless known (by decide) (by decide)).isBalanced
      have spaced : Text.IsBalanced (" " ++ (node.field "operator").shown ++ " ") :=
        (operator.append_left (by rfl)).append_right (by rfl)
      exact (Turns.skip (balance.side node "left") (.skip (.word spaced)
        (.skip (balance.side node "right") (.skip (balance.present node "operator") .nil)))).balanced
  | update =>
      simp only [Construct.layout]
      rw [Layout.update_of_form (readable.argument_form known)]
      refine (balance.child node "argument").next (balance.needed fun operator found => ?_)
      split
      · next mark held =>
          have same := (Node.field_of_field? found).trans (Value.eq_text held)
          exact .avoiding (tree.plain.texts "operator" (by decide) mark same)
      · exact fun _ => rfl
  | expressionStatement => exact balance.text node "expression"
  | call =>
      refine .call (readable.callee_form known) fun callee substitute asked => ?_
      obtain ⟨name, listed⟩ := Rule.methodSubstitute?_listed asked
      exact names.methods _ listed
  | construction => exact (IsBalanced.bare (by rfl)).next (balance.wanting (balance.visit _ _ _))
  | member =>
      refine .member fun substitute asked => ?_
      obtain ⟨name, listed⟩ := Rule.propertySubstitute?_listed asked
      exact names.properties _ listed
  | functionDeclaration =>
      have name :
          (Layout.word ("function " ++ (node.field "id").name ++ "(")).Turns [] [.round] := by
        refine .word ?_
        rw [Text.marks_append, Text.marks_append, (tree.name Text.bracketless "id").marks_eq_nil]
        rfl
      exact (Turns.cons name (.skip (balance.parameters node .comma) (.cons round
        (.skip (balance.present node "body") (.skip (balance.enter node)
          (.skip (balance.wanting balance.empty) (.cons block
            (.skip (balance.text node "body") (.cons curly .nil))))))))).balanced
  | functionExpression => exact balance.visit _ _ _
  | classDeclaration =>
      have name : (Layout.word ("class " ++ (node.field "id").name)).IsBalanced :=
        .avoiding (Text.Avoids.append_iff.mpr ⟨by decide, tree.name Text.bracketless "id"⟩)
      exact (Turns.skip (balance.present node "id") (.skip name (.skip (.superclass tree)
        (.opening .curly rfl (.skip (balance.text node "body")
          (.cons (.word rfl) .nil)))))).balanced
  | methodDefinition => exact .method
  | objectLiteral =>
      have entries : (Layout.optionalItems node "properties" (.separatedBy ", ")).IsBalanced :=
        balance.optionalItems fun _ all => balance.separatedBy .comma all
      exact (Turns.opening .round rfl
        (.skip (balance.wanting entries) (.cons round .nil))).balanced
  | arrayLiteral =>
      refine (Turns.opening .round rfl
        (.skip (balance.wanting ?_) (.cons round .nil))).balanced
      refine balance.shaped fun items _ =>
        balance.separatedBy .comma (List.forall_mem_map.mpr fun entry _ => ?_)
      split
      · exact .bare rfl
      · exact balance.visit _ _ _
  | property => exact .property tree
  | returnStatement => exact balance.optionalText (.bare rfl) (.bare rfl)
  | ifStatement =>
      have branch : (Layout.word "\x7d").Turns [.curly] [] := .word rfl
      exact (Turns.opening .round rfl (.skip (balance.child node "test")
        (.cons turn (.skip (balance.text node "consequent")
          (.cons branch (.skip .alternate .nil)))))).balanced
  | forStatement =>
      have start : (Layout.optional node "init" .empty (.loopInit node)).IsBalanced :=
        balance.optional (.bare rfl) fun init _ => balance.loopInit node init .comma fun inner => inner
      have clause (field : String) : (Layout.optionalChild node field "" "" "").IsBalanced :=
        balance.optionalChild (.bare rfl) (.bare rfl) (.bare rfl)
      exact (Turns.opening .round rfl (.skip start (.skip (.bare rfl) (.skip (clause "test")
        (.skip (.bare rfl) (.skip (clause "update") (.cons round (.cons block
          (.skip (balance.child node "body") (.cons curly .nil)))))))))).balanced
  | forInStatement =>
      have left : (Layout.clause (.text node "left")).IsBalanced :=
        balance.text node "left"
      exact (Turns.opening .round rfl (.skip (balance.child node "right")
        (.skip (.bare rfl) (.skip left (.cons (.word rfl) (.cons block
          (.skip (balance.child node "body") (.cons curly .nil)))))))).balanced
  | switchStatement =>
      have clauses : (Layout.shaped (node.optionalItems "cases") fun cases =>
          .joined ((Layout.textSlots (.item "cases") (.within node) cases).map fun clause =>
            .next clause (.word "\n"))).IsBalanced :=
        balance.shaped fun cases _ => balance.joined (List.forall_mem_map.mpr fun clause inside =>
          (balance.textSlots _ _ cases clause inside).next (.bare rfl))
      exact (Turns.opening .round rfl (.skip (balance.child node "discriminant")
        (.cons turn (.skip clauses (.cons curly .nil))))).balanced
  | switchCase =>
      exact (balance.optionalChild (.bare rfl) (.bare rfl) (.bare rfl)).next
        (balance.statements _ _ _)
  | breakStatement => exact .bare rfl
  | moduleDeclaration =>
      have name : (Layout.word ("namespace " ++ Naming.moduleNamespace (node.field "id").name ++
          ";\n")).IsBalanced := by
        refine .avoiding ?_
        simp only [Naming.moduleNamespace, Text.Avoids.append_iff]
        exact ⟨⟨by decide, (tree.name Text.bracketless "id").capitalised Text.brackets_subset⟩, by decide⟩
      exact (Turns.skip (balance.present node "id") (.skip name
        (.skip (balance.needed fun body _ => balance.moduleBody node body) .nil))).balanced
  | exportDeclaration => exact balance.exported node
  | importDeclaration =>
      exact balance.wanting (balance.optionalItems fun _ all => balance.joined all)
  | importSpecifier => exact .imported tree plain

/-! ## Rendered texts -/

/-- Every node of a readable plain tree is rendered into a text in which the brackets
are well nested, by induction on what it visits. -/
theorem render_isBalanced {options : Options} (names : options.IsPlain (Text.Avoids Text.brackets))
    {node : Node} (readable : node.Readable) (tree : node.IsPlainTree (Text.Avoids Text.brackets))
    {position : Position} (usable : position.IsUsable)
    (plain : position.HasPlainSource (Text.Avoids Text.brackets)) :
    ∃ text, (render options (.node node) position).outcome = .ok text ∧ Text.IsBalanced text := by
  obtain ⟨text, rendered⟩ := (render_isSafe options readable usable).outcome
  refine ⟨text, rendered, ?_⟩
  induction node, position using Node.visit_induction options generalizing text with
  | step node position ih =>
      rcases render_cases rendered with rfl | ⟨written, writes, rfl⟩
      · exact .nil
      have balanced : (node.layout options position).IsBalanced := by
        unfold Node.layout
        split
        · exact fun _ => rfl
        · next construct known => exact construct.layout_isBalanced names known readable tree plain
      have slots : ∀ source value place,
          .visit source value place ∈ (node.layout options position).tasks →
          ∀ slot, (render options value place).outcome = .ok slot → Text.IsBalanced slot := by
        intro source value place held slot found
        rw [node.layout_tasks] at held
        obtain ⟨⟨child, rfl, below⟩, fine⟩ := Node.tasks_safe options readable usable _ held
        obtain ⟨inner, there⟩ :=
          tree.visit Text.bracketless (fun _ => names.constructor) readable held
        exact ih source child place held below inner fine (there plain) slot found
      unfold Text.IsBalanced
      rw [Text.marks_terminated]
      exact wellNested_of_stillOpen (writes.stillOpen slots (balanced []))

/-- The built-in substitutes bring no brackets with them. -/
theorem Options.default_isPlain : Options.IsPlain (Text.Avoids Text.brackets) {} :=
  ⟨by decide, by decide, by decide⟩

/-- An array of an identifier without a name, a hole and an expression of an unknown kind. -/
def brokenArray : Node :=
  let element (index : Nat) : Origin := ⟨0, [.item index, .member "elements"]⟩
  ⟨⟨0, []⟩, "ArrayExpression",
    [("elements", .list
      [.node ⟨element 0, "Identifier", [], none⟩, .null,
        .node ⟨element 2, "YieldExpression", [], none⟩])],
    none⟩

theorem brokenArray_isBalanced :
    ∃ text, (render {} (.node brokenArray) {}).outcome = .ok text ∧ Text.IsBalanced text := by
  have readable : brokenArray.Readable := Node.readable_of_check 2 (by decide)
  have tree : brokenArray.IsPlainTree (Text.Avoids Text.brackets) :=
    Node.isPlainTree_of_check 2 (by decide)
  exact render_isBalanced Options.default_isPlain readable tree ⟨rfl, ImportSource.noConfusion⟩
    (fun _ => ImportSource.noConfusion)

end PhpRendering
