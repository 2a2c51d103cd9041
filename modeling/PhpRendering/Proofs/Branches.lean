import PhpRendering.Proofs.Header
import PhpRendering.Proofs.Inversion
import PhpRendering.Proofs.StatementReading

/-!
# Branches of alternates

The branch of an alternate is written behind the word `else`: a block gets brackets, any other
statement stands as it is rendered. So the branch is one statement where the rendering is one.
That is not so for what is left out, for functions, for variables without initial values or
with several of them, and for conditions that end in a branch of these kinds.
-/

namespace PhpRendering

namespace Node

def singleStatements : List String :=
  ["ExpressionStatement", "ReturnStatement", "BreakStatement", "ForStatement", "ForInStatement",
    "SwitchStatement"]

inductive OnlyLastInitialised : List Node → Prop where
  | last {declarator : Node} (initialised : declarator.has "init" = true) :
      OnlyLastInitialised [declarator]
  | cons {declarator : Node} {rest : List Node} (bare : declarator.has "init" = false)
      (later : OnlyLastInitialised rest) : OnlyLastInitialised (declarator :: rest)

/-- The branches that are written as one statement. A condition has such a branch in its turn. -/
inductive IsOneBranch (options : Options) : Node → Position → Prop where
  | block {node : Node} {position : Position} (kind : node.kind = "BlockStatement") :
      IsOneBranch options node position
  | single {node : Node} {position : Position} (kind : node.kind ∈ singleStatements)
      (fine : MissNothing (node.tasks options position)) : IsOneBranch options node position
  | declaration {node : Node} {position : Position} (kind : node.kind = "VariableDeclaration")
      (ends : OnlyLastInitialised (nodesOf (node.field "declarations"))) :
      IsOneBranch options node position
  | condition {node : Node} {position : Position} (kind : node.kind = "IfStatement")
      (fine : MissNothing (node.tasks options position))
      (last : node.field? "alternate" = none) : IsOneBranch options node position
  | alternative {node other : Node} {position : Position} (kind : node.kind = "IfStatement")
      (fine : MissNothing (node.tasks options position))
      (held : node.field? "alternate" = some (.node other))
      (branch : other.IsOneBranch options (.within node)) : IsOneBranch options node position

structure DeclaresName (declarator : Node) : Prop where
  kind : declarator.kind = "VariableDeclarator"
  target : ∃ name : Node, declarator.field "id" = .node name ∧ name.kind = "Identifier" ∧
    name.name ≠ ""
  init : ∀ value ∈ nodesOf (declarator.field "init"), value.IsExpression

/-- The statements that may be branches: those of all kinds, made of expressions and names, and
nodes without a rule. An expression that is a statement does not begin as a block, a
condition or a loop would. -/
inductive IsBranch (options : Options) : Node → Position → Prop where
  | block {node : Node} {position : Position} (kind : node.kind = "BlockStatement") :
      IsBranch options node position
  | unsupported {node : Node} {position : Position}
      (unknown : Construct.ofKind? node.kind = none) : IsBranch options node position
  | expression {node : Node} {position : Position} (kind : node.kind = "ExpressionStatement")
      (operand : ∀ child ∈ nodesOf (node.field "expression"), child.IsExpression)
      (plainly : ∀ text, (render options (.node node) position).outcome = .ok text → text ≠ "" →
        Text.OpensPlainly text) : IsBranch options node position
  | result {node : Node} {position : Position} (kind : node.kind = "ReturnStatement")
      (operand : ∀ child ∈ nodesOf (node.field "argument"), child.IsExpression) :
      IsBranch options node position
  | leave {node : Node} {position : Position} (kind : node.kind = "BreakStatement") :
      IsBranch options node position
  | counting {node : Node} {position : Position} (kind : node.kind = "ForStatement") :
      IsBranch options node position
  | keys {node : Node} {position : Position} (kind : node.kind = "ForInStatement") :
      IsBranch options node position
  | selection {node : Node} {position : Position} (kind : node.kind = "SwitchStatement") :
      IsBranch options node position
  | declaration {node : Node} {position : Position} (kind : node.kind = "VariableDeclaration")
      (declarators : ∀ declarator ∈ nodesOf (node.field "declarations"), declarator.DeclaresName) :
      IsBranch options node position
  | function {node : Node} {position : Position} (kind : node.kind = "FunctionDeclaration") :
      IsBranch options node position
  | condition {node : Node} {position : Position} (kind : node.kind = "IfStatement")
      (alternate : ∀ other, node.field? "alternate" = some (.node other) →
        other.IsBranch options (.within node)) : IsBranch options node position

def branchText (node : Node) (text : String) : String :=
  if node.kind = "BlockStatement" then "\x7b" ++ (text ++ "\x7d") else text

theorem branchText_eq {node : Node} (bare : node.kind ≠ "BlockStatement") (text : String) :
    node.branchText text = text :=
  if_neg bare

/-! ## Branches by kind -/

namespace IsOneBranch

variable {options : Options} {node : Node} {position : Position}

theorem single_iff (kind : node.kind ∈ singleStatements) :
    node.IsOneBranch options position ↔ MissNothing (node.tasks options position) := by
  refine ⟨fun branch => ?_, .single kind⟩
  cases branch with
  | single _ fine => exact fine
  | block other | declaration other | condition other | alternative other =>
      rw [other] at kind
      exact absurd kind (by decide)

theorem declaration_iff (kind : node.kind = "VariableDeclaration") :
    node.IsOneBranch options position ↔
      OnlyLastInitialised (nodesOf (node.field "declarations")) := by
  refine ⟨fun branch => ?_, .declaration kind⟩
  cases branch with
  | declaration _ ends => exact ends
  | single other =>
      rw [kind] at other
      exact absurd other (by decide)
  | block other | condition other | alternative other =>
      exact absurd (kind.symm.trans other) (by decide)

theorem condition_iff (kind : node.kind = "IfStatement") :
    node.IsOneBranch options position ↔ MissNothing (node.tasks options position) ∧
      ∀ value, node.field? "alternate" = some value →
        ∃ other, value = .node other ∧ other.IsOneBranch options (.within node) := by
  constructor
  · intro branch
    cases branch with
    | condition _ fine last =>
        refine ⟨fine, fun value held => ?_⟩
        cases last.symm.trans held
    | alternative _ fine held branch =>
        refine ⟨fine, fun value found => ?_⟩
        cases held.symm.trans found
        exact ⟨_, rfl, branch⟩
    | single other =>
        rw [kind] at other
        exact absurd other (by decide)
    | block other | declaration other => exact absurd (kind.symm.trans other) (by decide)
  · rintro ⟨fine, branches⟩
    cases found : node.field? "alternate" with
    | none => exact .condition kind fine found
    | some value =>
        obtain ⟨other, rfl, branch⟩ := branches value found
        exact .alternative kind fine found branch

/-- A node of another kind is not written as one statement. -/
theorem not_of_kind (other : node.kind ∉
    ["BlockStatement", "VariableDeclaration", "IfStatement"] ++ singleStatements) :
    ¬ node.IsOneBranch options position := by
  intro branch
  cases branch with
  | single kind => exact other (List.mem_append_right _ kind)
  | block kind | declaration kind | condition kind | alternative kind =>
      rw [kind] at other
      exact other (by decide)

end IsOneBranch

end Node

/-! ## What is left out -/

/-- What is written misses nothing. -/
theorem Layout.Writes.missNothing {render : Renderer} {layout : Layout} {text : String}
    (writes : layout.Writes render text) : MissNothing layout.tasks := by
  induction writes with
  | word text => exact List.forall_mem_nil _
  | visit rendered =>
      refine List.forall_mem_singleton.mpr fun missing => ?_
      rintro ⟨⟩
  | enter function =>
      refine List.forall_mem_singleton.mpr fun missing => ?_
      rintro ⟨⟩
  | report diagnostic =>
      refine List.forall_mem_singleton.mpr fun missing => ?_
      rintro ⟨⟩
  | next _ _ before after => exact List.forall_mem_append.mpr ⟨before, after⟩
  | swap _ _ after before => exact List.forall_mem_append.mpr ⟨after, before⟩
  | unwritten _ ih | clause _ ih | line _ ih | changed _ _ ih => exact ih

namespace Layout

variable {render : Renderer} {text : String}

theorem writes_joined_append_iff {first second : List Layout} :
    (joined (first ++ second)).Writes render text ↔
      ∃ before after, (joined first).Writes render before ∧ (joined second).Writes render after ∧
        text = before ++ after := by
  induction first generalizing text with
  | nil => simp
  | cons layout rest ih =>
      simp only [List.cons_append, writes_joined_cons_iff, ih]
      constructor
      · rintro ⟨one, _, early, ⟨before, after, middle, late, rfl⟩, rfl⟩
        exact ⟨one ++ before, after, ⟨one, before, early, middle, rfl⟩, late,
          String.append_assoc.symm⟩
      · rintro ⟨_, after, ⟨one, before, early, middle, rfl⟩, late, rfl⟩
        exact ⟨one, before ++ after, early, ⟨before, after, middle, late, rfl⟩, String.append_assoc⟩

/-- The text of layouts in a row is made of a text for each of them. -/
theorem Writes.exists_joined {layouts : List Layout}
    (writes : (Layout.joined layouts).Writes render text) :
    ∃ texts, List.Forall₂ (Layout.Writes render) layouts texts ∧ text = Text.joined texts := by
  induction layouts generalizing text with
  | nil => exact ⟨[], .nil, writes_joined_nil_iff.mp writes⟩
  | cons first rest ih =>
      obtain ⟨one, _, start, later, rfl⟩ := writes_joined_cons_iff.mp writes
      obtain ⟨texts, all, rfl⟩ := ih later
      exact ⟨one :: texts, .cons start all, (Text.joined_cons one texts).symm⟩

/-- The word of a loop or a selection, its header in round brackets and its block. -/
def headed (word : String) (header turn body : List Layout) : Layout :=
  joined (.word (word ++ " (") :: (header ++ (turn ++ (body ++ [.word "\x7d\n"]))))

end Layout

section Branch

variable {options : Options} {node : Node} {position : Position} {text : String}

/-- A node for which something is missing has no text. -/
theorem render_eq_empty_of_missing (missing : ¬ MissNothing (node.tasks options position))
    (rendered : (render options (.node node) position).outcome = .ok text) : text = "" := by
  rcases render_cases rendered with none | ⟨written, writes, -⟩
  · exact none
  · refine absurd ?_ missing
    rw [← Node.layout_tasks]
    exact writes.missNothing

theorem render_eq_empty_of_unknown (unknown : Construct.ofKind? node.kind = none)
    (rendered : (render options (.node node) position).outcome = .ok text) : text = "" := by
  rcases render_cases rendered with none | ⟨written, writes, eq⟩
  · exact none
  · unfold Node.layout at writes
    rw [unknown] at writes
    unfold Node.owesTerminator at eq
    rw [unknown] at eq
    cases writes
    exact eq

/-! ## Texts of branches -/

/-- A balanced layout with balanced slots has a balanced text. -/
theorem Layout.Writes.isBalanced {layout : Layout}
    (writes : layout.Writes (render options) text) (balanced : layout.IsBalanced)
    (slots : ∀ source value place, .visit source value place ∈ layout.tasks →
      ∀ slot, (render options value place).outcome = .ok slot → Text.IsBalanced slot) :
    Text.IsBalanced text :=
  wellNested_iff.mpr (writes.stillOpen slots (balanced []))

/-- What begins with the word of a loop or a selection is one statement, when its header and
its block close all brackets that they open. -/
theorem Layout.Writes.headed_isOneStatement {word : String} {header turn body : List Layout}
    (writes : (Layout.headed word header turn body).Writes (render options) text)
    (slots : ∀ source value place,
      .visit source value place ∈ (Layout.headed word header turn body).tasks →
      ∀ slot, (render options value place).outcome = .ok slot → Text.IsBalanced slot)
    (listed : word.toList ∈ Text.heads) (before : (Layout.joined header).IsBalanced)
    (inside : (Layout.joined body).IsBalanced)
    (turns : ∀ written, (Layout.joined turn).Writes (render options) written →
      ∃ last, Text.marks last = [] ∧ written = last ++ ") \x7b\n")
    {ending : String} (blank : ending.toList.all Text.isBlank = true) :
    Text.IsOneStatement (text ++ ending) := by
  obtain ⟨_, _, opening, afterWord, rfl⟩ := Layout.writes_joined_cons_iff.mp writes
  obtain ⟨first, _, one, afterHeader, rfl⟩ := Layout.writes_joined_append_iff.mp afterWord
  obtain ⟨_, _, between, afterTurn, rfl⟩ := Layout.writes_joined_append_iff.mp afterHeader
  obtain ⟨second, _, two, closing, rfl⟩ := Layout.writes_joined_append_iff.mp afterTurn
  obtain ⟨last, bare, rfl⟩ := turns _ between
  simp only [Layout.writes_joined_cons_iff, Layout.writes_joined_nil_iff,
    Layout.writes_word_iff] at opening closing
  obtain ⟨_, _, rfl, rfl, rfl⟩ := closing
  subst opening
  have balanced {layouts : List Layout} {written : String}
      (part : (Layout.joined layouts).Writes (render options) written)
      (closes : (Layout.joined layouts).IsBalanced)
      (among : layouts ⊆ header ++ (turn ++ (body ++ [.word "\x7d\n"]))) :
      Text.IsBalanced written := by
    refine part.isBalanced closes fun source value place held => slots source value place ?_
    rw [Layout.tasks_joined] at held
    rw [Layout.headed, Layout.tasks_joined]
    obtain ⟨layout, inner, task⟩ := List.mem_flatMap.mp held
    exact List.mem_flatMap.mpr ⟨layout, List.mem_cons_of_mem _ (among inner), task⟩
  have head := (balanced one before (List.subset_append_left _ _)).append_right bare
  have block := balanced two inside fun _ among =>
    List.mem_append_right _ (List.mem_append_right _ (List.mem_append_left _ among))
  have whole : Text.IsOneStatement (word ++ (" (" ++ (first ++ last ++ (") \x7b\n" ++
      (second ++ ("\x7d" ++ ("\n" ++ ending))))))) :=
    Text.isOneStatement_head listed head block (Text.blanks_append rfl blank)
  rw [← Text.close_append] at whole
  simpa [String.append_assoc] using whole

/-- A loop, a selection or a statement of an expression is one statement unless something of
it is missing. -/
theorem single_isOneBranch_iff (kind : node.kind ∈ Node.singleStatements)
    (rendered : (render options (.node node) position).outcome = .ok text) {ending : String}
    (blank : ending.toList.all Text.isBlank = true)
    (whole : MissNothing (node.tasks options position) → Text.IsOneStatement (text ++ ending)) :
    Text.IsOneStatement (text ++ ending) ↔ node.IsOneBranch options position := by
  rw [Node.IsOneBranch.single_iff kind]
  refine ⟨fun one => ?_, whole⟩
  by_contra missing
  rw [render_eq_empty_of_missing missing rendered, String.empty_append] at one
  exact Text.not_isOneStatement_of_blank blank one

/-- A quiet text that owes a terminator is one statement. -/
theorem Text.isOneStatement_fragment {written ending : String} (quiet : Text.IsQuiet written)
    (plain : Text.OpensPlainly (written ++ terminator))
    (blank : ending.toList.all Text.isBlank = true) :
    Text.IsOneStatement (Fragment.terminated ⟨written, true⟩ ++ ending) := by
  rw [Text.terminated_statement quiet.isTerminated_eq_false]
  exact Text.isOneStatement_terminated quiet plain blank

theorem leave_isOneBranch_iff (kind : node.kind = "BreakStatement")
    (rendered : (render options (.node node) position).outcome = .ok text) {ending : String}
    (blank : ending.toList.all Text.isBlank = true) :
    Text.IsOneStatement (text ++ ending) ↔ node.IsOneBranch options position := by
  have known : Construct.ofKind? node.kind = some .breakStatement := by
    rw [kind]
    rfl
  refine single_isOneBranch_iff (by rw [kind]; decide) rendered blank fun fine => ?_
  obtain ⟨written, writes, rfl⟩ := (render_ok_iff fine).mp rendered
  rw [Node.layout_eq known] at writes
  rw [Node.owesTerminator_eq known, Layout.writes_word_iff.mp writes]
  exact Text.isOneStatement_fragment (.of_avoids (by decide)) ⟨by decide, by decide⟩ blank

/-! ## Plain branches -/

variable (names : options.IsPlain (Text.Avoids Text.delimiters)) (readable : node.Readable)
  (tree : node.IsPlainTree (Text.Avoids Text.delimiters))
include names readable tree

/-- The text of a plain node is balanced. -/
theorem Node.text_isBalanced (usable : position.IsUsable)
    (plain : position.HasPlainSource (Text.Avoids Text.delimiters))
    (rendered : (render options (.node node) position).outcome = .ok text) :
    Text.IsBalanced text := by
  have fewer {text : String} (avoids : Text.Avoids Text.delimiters text) :=
    avoids.mono Text.brackets_subset
  obtain ⟨same, found, balanced⟩ := render_isBalanced (names.mono fewer) readable (tree.mono fewer)
    usable (plain.mono fewer)
  cases found.symm.trans rendered
  exact balanced

/-- The slots of a plain node hold balanced texts. -/
theorem Node.slots_balanced (usable : position.IsUsable)
    (plain : position.HasPlainSource (Text.Avoids Text.delimiters)) :
    ∀ source value place, .visit source value place ∈ (node.layout options position).tasks →
      ∀ slot, (render options value place).outcome = .ok slot → Text.IsBalanced slot := by
  intro source value place visits slot rendered
  rw [node.layout_tasks] at visits
  obtain ⟨⟨child, rfl, below⟩, fine⟩ := Node.tasks_safe options readable usable _ visits
  obtain ⟨inner, there⟩ :=
    tree.visit Text.undelimited (fun _ => names.constructor) readable visits
  exact Node.text_isBalanced names below inner fine (there plain) rendered

/-! ## Loops and selections -/

/-- A construct that is laid out as a head and a block is one statement unless something of
it is missing. -/
theorem headed_isOneBranch_iff (kind : node.kind ∈ Node.singleStatements) {construct : Construct}
    (known : Construct.ofKind? node.kind = some construct)
    (bare : construct.owesTerminator options node position = false)
    {word : String} {header turn body : List Layout}
    (shape : construct.layout options node position = .headed word header turn body)
    (listed : word.toList ∈ Text.heads) (before : (Layout.joined header).IsBalanced)
    (inside : (Layout.joined body).IsBalanced)
    (turns : ∀ written, (Layout.joined turn).Writes (render options) written →
      ∃ last, Text.marks last = [] ∧ written = last ++ ") \x7b\n")
    (usable : position.IsUsable) (plain : position.HasPlainSource (Text.Avoids Text.delimiters))
    (rendered : (render options (.node node) position).outcome = .ok text) {ending : String}
    (blank : ending.toList.all Text.isBlank = true) :
    Text.IsOneStatement (text ++ ending) ↔ node.IsOneBranch options position := by
  refine single_isOneBranch_iff kind rendered blank fun fine => ?_
  obtain ⟨written, writes, rfl⟩ := (render_ok_iff fine).mp rendered
  have slots := Node.slots_balanced names readable tree usable plain
  rw [Node.layout_eq known, shape] at writes slots
  rw [Node.owesTerminator_eq known, bare]
  exact writes.headed_isOneStatement slots listed before inside turns blank

section Loops

variable (usable : position.IsUsable)
  (plain : position.HasPlainSource (Text.Avoids Text.delimiters))
  (rendered : (render options (.node node) position).outcome = .ok text) {ending : String}
  (blank : ending.toList.all Text.isBlank = true)
include usable plain rendered blank

theorem counting_isOneBranch_iff (kind : node.kind = "ForStatement") :
    Text.IsOneStatement (text ++ ending) ↔ node.IsOneBranch options position := by
  have known : Construct.ofKind? node.kind = some .forStatement := by
    rw [kind]
    rfl
  have start : (Layout.optional node "init" .empty (.loopInit node)).IsBalanced :=
    Layout.balance.optional (.bare rfl) fun init _ =>
      Layout.balance.loopInit node init .comma fun inner => inner
  have clause (field : String) : (Layout.optionalChild node field "" "" "").IsBalanced :=
    Layout.balance.optionalChild (.bare rfl) (.bare rfl) (.bare rfl)
  have semicolon : (Layout.word "; ").IsBalanced := .bare rfl
  have shape : Construct.forStatement.layout options node position =
      .headed "for"
        [.optional node "init" .empty (.loopInit node), .word "; ",
          .optionalChild node "test" "" "" "", .word "; ", .optionalChild node "update" "" "" ""]
        [.word ")", .word " \x7b\n"] [.child node "body"] := rfl
  refine headed_isOneBranch_iff names readable tree (by rw [kind]; decide) known rfl shape
    (by decide) ?_ ?_ (fun written turn => ⟨"", rfl, ?_⟩)
    usable plain rendered blank
  · exact Layout.balance.joined (by simp [start, clause, semicolon])
  · exact Layout.balance.joined (List.forall_mem_singleton.mpr (Layout.balance.child node "body"))
  · simpa using turn

theorem keys_isOneBranch_iff (kind : node.kind = "ForInStatement") :
    Text.IsOneStatement (text ++ ending) ↔ node.IsOneBranch options position := by
  have known : Construct.ofKind? node.kind = some .forInStatement := by
    rw [kind]
    rfl
  have between : (Layout.word " as ").IsBalanced := .bare rfl
  have left : (Layout.clause (.text node "left")).IsBalanced := Layout.balance.text node "left"
  have right := Layout.balance.child node "right"
  have shape : Construct.forInStatement.layout options node position =
      .headed "foreach" [.child node "right", .word " as ", .clause (.text node "left")]
        [.word (" => " ++ Naming.discardedValue ++ ")"), .word " \x7b\n"]
        [.child node "body"] := rfl
  refine headed_isOneBranch_iff names readable tree (by rw [kind]; decide) known rfl shape
    (by decide) ?_ ?_ (fun written turn => ⟨" => " ++ Naming.discardedValue, rfl, ?_⟩)
    usable plain rendered blank
  · exact Layout.balance.joined (by simp [left, right, between])
  · exact Layout.balance.joined (List.forall_mem_singleton.mpr (Layout.balance.child node "body"))
  · simpa [String.append_assoc] using turn

theorem selection_isOneBranch_iff (kind : node.kind = "SwitchStatement") :
    Text.IsOneStatement (text ++ ending) ↔ node.IsOneBranch options position := by
  have known : Construct.ofKind? node.kind = some .switchStatement := by
    rw [kind]
    rfl
  have newline : (Layout.word "\n").IsBalanced := .bare rfl
  have clauses : (Layout.shaped (node.optionalItems "cases") fun cases =>
      .joined ((Layout.textSlots (.item "cases") (.within node) cases).map fun clause =>
        .next clause (.word "\n"))).IsBalanced :=
    Layout.balance.shaped fun cases _ => Layout.balance.joined (List.forall_mem_map.mpr
      fun clause inside => (Layout.balance.textSlots _ _ cases clause inside).next newline)
  have shape : Construct.switchStatement.layout options node position =
      .headed "switch" [.child node "discriminant"] [.word ") \x7b\n"]
        [.shaped (node.optionalItems "cases") fun cases =>
          .joined ((Layout.textSlots (.item "cases") (.within node) cases).map fun clause =>
            .next clause (.word "\n"))] := rfl
  refine headed_isOneBranch_iff names readable tree (by rw [kind]; decide) known rfl shape
    (by decide) ?_ ?_ (fun written turn => ⟨"", rfl, ?_⟩)
    usable plain rendered blank
  · exact Layout.balance.joined
      (List.forall_mem_singleton.mpr (Layout.balance.child node "discriminant"))
  · exact Layout.balance.joined (List.forall_mem_singleton.mpr clauses)
  · simpa using turn

end Loops

/-! ## Simple statements -/

omit names in
/-- An operand of a statement is a plain expression. -/
theorem Node.IsPlainTree.operand {construct : Construct}
    (known : Construct.ofKind? node.kind = some construct) {part : Part} {field : String}
    (listed : part ∈ construct.parts) (read : ⟨field, .node, .rendered⟩ ∈ part.readings)
    (operand : ∀ child ∈ Node.nodesOf (node.field field), child.IsExpression) {value : Value}
    (found : node.field? field = some value) :
    ∃ child, node.field field = .node child ∧ child.IsPlainExpression := by
  have fulfils := (Node.readable_iff_parts known).mp readable part listed _ read
  obtain ⟨child, rfl, roles⟩ := fulfils.node_of_field? (.inl rfl) found
  have held := Node.field_of_field? found
  refine ⟨child, held, operand child ?_, roles, tree.child held⟩
  rw [held]
  exact List.mem_singleton_self _

section Simple

variable (rendered : (render options (.node node) position).outcome = .ok text) {ending : String}
  (blank : ending.toList.all Text.isBlank = true)
include rendered blank

theorem expression_isOneBranch_iff (kind : node.kind = "ExpressionStatement")
    (operand : ∀ child ∈ Node.nodesOf (node.field "expression"), child.IsExpression)
    (plainly : text ≠ "" → Text.OpensPlainly text) :
    Text.IsOneStatement (text ++ ending) ↔ node.IsOneBranch options position := by
  have known : Construct.ofKind? node.kind = some .expressionStatement := by
    rw [kind]
    rfl
  refine single_isOneBranch_iff (by rw [kind]; decide) rendered blank fun fine => ?_
  obtain ⟨written, writes, -⟩ := (render_ok_iff fine).mp rendered
  rw [Node.layout_eq known] at writes
  obtain ⟨value, found, -⟩ := Layout.writes_text_iff.mp writes
  obtain ⟨child, held, expression⟩ := Node.IsPlainTree.operand readable tree known
    (List.mem_singleton_self _) (List.mem_singleton_self _) operand found
  obtain ⟨inner, has, quiet⟩ := expression.exists_text names
  have ended : (render options (.node node) position).outcome = _ :=
    (expression.endsOnce has quiet).expressionStatement kind held
  obtain rfl := Except.ok.inj (rendered.symm.trans ended)
  refine Text.isOneStatement_terminated quiet (plainly fun none => ?_) blank
  simp [terminator] at none

theorem result_isOneBranch_iff (kind : node.kind = "ReturnStatement")
    (operand : ∀ child ∈ Node.nodesOf (node.field "argument"), child.IsExpression) :
    Text.IsOneStatement (text ++ ending) ↔ node.IsOneBranch options position := by
  have known : Construct.ofKind? node.kind = some .returnStatement := by
    rw [kind]
    rfl
  refine single_isOneBranch_iff (by rw [kind]; decide) rendered blank fun fine => ?_
  cases found : node.field? "argument" with
  | none =>
      obtain ⟨written, writes, rfl⟩ := (render_ok_iff fine).mp rendered
      rw [Node.layout_eq known] at writes
      simp only [Construct.layout, Layout.optionalText, Layout.optional, found,
        Layout.writes_word_iff] at writes
      rw [Node.owesTerminator_eq known, writes]
      exact Text.isOneStatement_fragment (.of_avoids (by decide)) ⟨by decide, by decide⟩ blank
  | some value =>
      obtain ⟨child, held, expression⟩ := Node.IsPlainTree.operand readable tree known
        (List.mem_singleton_self _) (List.mem_singleton_self _) operand found
      obtain ⟨inner, has, quiet⟩ := expression.exists_text names
      have ended : (render options (.node node) position).outcome = _ :=
        (expression.endsOnce has quiet).returnStatement kind held
      obtain rfl := Except.ok.inj (rendered.symm.trans ended)
      have opens : Text.OpensPlainly "return " := ⟨by decide, by decide⟩
      have returned : Text.IsQuiet ("return " ++ inner) :=
        (Text.IsQuiet.of_avoids (by decide)).append quiet
      exact Text.isOneStatement_terminated returned
        ((opens.append_text inner).append_text terminator) blank

end Simple

end Branch

end PhpRendering
