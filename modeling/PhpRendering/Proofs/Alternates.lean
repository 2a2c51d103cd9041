import PhpRendering.Proofs.Branches
import PhpRendering.Proofs.Terminator

/-!
# Alternates

The text behind the word `else` is one statement in exactly those conditions whose branch is
written as one. In all others it is blank, so that the next statement of the list is drawn into
the alternate, or a part of it falls out of the alternate.
-/

namespace PhpRendering

variable {options : Options} {node : Node} {position : Position} {text ending : String}

/-! ## Functions -/

/-- A function ends in a bracket, so it is no statement behind the word `else`. -/
theorem function_not_isOneStatement (kind : node.kind = "FunctionDeclaration")
    (rendered : (render options (.node node) position).outcome = .ok text)
    (blank : ending.toList.all Text.isBlank = true) : ¬ Text.IsOneStatement (text ++ ending) := by
  have known : Construct.ofKind? node.kind = some .functionDeclaration := by
    rw [kind]
    rfl
  rcases render_cases rendered with rfl | ⟨written, writes, rfl⟩
  · rw [String.empty_append]
    exact Text.not_isOneStatement_of_blank blank
  have shape : Construct.functionDeclaration.layout options node position =
      .joined (.word ("function " ++ (node.field "id").name ++ "(") ::
        ([.parameters node, .word ")", .present node "body", .enter node, .parameterTexts node,
          .word " \x7b\n", .text node "body"] ++ [.word "\x7d\n"])) := rfl
  rw [Node.layout_eq known, shape] at writes
  rw [Node.owesTerminator_eq known]
  obtain ⟨_, _, opening, afterName, rfl⟩ := Layout.writes_joined_cons_iff.mp writes
  obtain ⟨middle, _, -, closing, rfl⟩ := Layout.writes_joined_append_iff.mp afterName
  simp only [Layout.writes_joined_cons_iff, Layout.writes_joined_nil_iff,
    Layout.writes_word_iff] at opening closing
  obtain ⟨_, _, rfl, rfl, rfl⟩ := closing
  subst opening
  have opens : Text.OpensPlainly "function " := ⟨by decide, by decide⟩
  have whole := Text.not_isOneStatement_of_closed
    (opens.append_text ((node.field "id").name ++ ("(" ++ middle)))
    (Text.blanks_append (rfl : "\n".toList.all Text.isBlank = true) blank)
  rw [← Text.close_append] at whole
  simpa [Fragment.terminated, Construct.owesTerminator, String.append_assoc] using whole

/-! ## Declarations -/

/-- What a declarator of a name is written as: its variable, with a terminator if it has an
initial value. -/
def Node.IsDeclaredAs (declarator : Node) (text : String) : Prop :=
  ∃ written, Text.IsQuiet ("$" ++ written) ∧
    text = "$" ++ written ++ if declarator.has "init" then terminator else ""

/-- Declared variables begin plainly. -/
theorem Node.IsDeclaredAs.opensPlainly {declarator : Node}
    (declared : declarator.IsDeclaredAs text) : Text.OpensPlainly text := by
  obtain ⟨written, -, rfl⟩ := declared
  have opens : Text.OpensPlainly "$" := ⟨by decide, by decide⟩
  exact (opens.append_text written).append_text _

/-- Nothing is left behind the first end of some declared variables exactly when only the last
one of them has an initial value. -/
theorem afterEnd_declared_iff {declarators : List Node} {texts : List String}
    (declared : List.Forall₂ Node.IsDeclaredAs declarators texts)
    (blank : ending.toList.all Text.isBlank = true) :
    (∃ blanks, blanks.all Text.isBlank = true ∧
        Text.afterEnd 0 (Text.joined texts ++ ending).toList = some blanks) ↔
      Node.OnlyLastInitialised declarators := by
  induction declared with
  | nil =>
      have quiet := Text.afterEnd_eq_none ((Text.blanks_isQuiet blank).ends 0)
      rw [Text.joined_nil, String.empty_append, quiet]
      exact iff_of_false (by simp) (by rintro ⟨⟩)
  | @cons declarator text rest texts first later ih =>
      obtain ⟨written, quiet, rfl⟩ := first
      rw [Text.joined_cons, String.append_assoc, String.append_assoc, String.toList_append,
        quiet.afterEnd_append]
      cases initialised : declarator.has "init" with
      | false =>
          rw [if_neg Bool.false_ne_true, String.empty_append, ih]
          refine ⟨.cons initialised, fun ends => ?_⟩
          cases ends with
          | last other => cases initialised.symm.trans other
          | cons _ later => exact later
      | true =>
          rw [if_pos rfl, String.toList_append]
          constructor
          · rintro ⟨blanks, blankToo, ⟨⟩⟩
            cases later with
            | nil => exact .last initialised
            | cons next later =>
                -- the next variable would be left behind the terminator
                obtain ⟨_, -, rfl⟩ := next
                simp [Text.joined_cons, Text.isBlank] at blankToo
          · intro ends
            cases ends with
            | last _ =>
                cases later
                exact ⟨'\n' :: ending.toList, by rw [List.all_cons, blank]; rfl, by simp; rfl⟩
            | cons bare _ => cases initialised.symm.trans bare

/-- Some declared variables are one statement exactly when only the last one of them has an
initial value. -/
theorem declared_isOneStatement_iff {declarators : List Node} {texts : List String}
    (declared : List.Forall₂ Node.IsDeclaredAs declarators texts)
    (blank : ending.toList.all Text.isBlank = true) :
    Text.IsOneStatement (Text.joined texts ++ ending) ↔ Node.OnlyLastInitialised declarators := by
  refine Iff.trans ?_ (afterEnd_declared_iff declared blank)
  cases declared with
  | nil =>
      have quiet := Text.afterEnd_eq_none ((Text.blanks_isQuiet blank).ends 0)
      rw [Text.joined_nil, String.empty_append, quiet]
      exact iff_of_false (Text.not_isOneStatement_of_blank blank) (by simp)
  | cons first later =>
      rw [Text.joined_cons]
      exact ((first.opensPlainly.append_text _).append_text ending).isOneStatement_iff

/-- Declarators in a list are written one after another. -/
theorem declared_of_rendered {items : List Value} {texts : List String}
    (all : List.Forall₂ (fun item text => (render options item position).outcome = .ok text)
      items texts)
    (nodes : ∀ item ∈ items, ∃ declarator, item = .node declarator ∧ ∀ text,
      (render options item position).outcome = .ok text → declarator.IsDeclaredAs text) :
    List.Forall₂ Node.IsDeclaredAs (Node.nodesOf (.list items)) texts := by
  induction all with
  | nil => exact .nil
  | cons first _ ih =>
      obtain ⟨head, tail⟩ := List.forall_mem_cons.mp nodes
      obtain ⟨declarator, rfl, declared⟩ := head
      exact .cons (declared _ first) (ih tail)

/-! ## Conditions -/

/-- The text of an alternate is that of its branch behind the word `else`. -/
theorem alternate_text {other : Node} (held : node.field? "alternate" = some (.node other))
    (writes : (Layout.alternate node).Writes (render options) text) :
    ∃ inner, (render options (.node other) (.within node)).outcome = .ok inner ∧
      text = " else " ++ other.branchText inner := by
  simp only [Layout.alternate, Layout.optional, held, Layout.shaped, Value.asNode] at writes
  unfold Node.branchText
  split at writes
  · next block =>
      simp only [Layout.writes_joined_cons_iff, Layout.writes_joined_nil_iff,
        Layout.writes_word_iff, Layout.writes_wanting_iff, Layout.writes_visit_iff] at writes
      obtain ⟨_, _, rfl, ⟨inner, _, ⟨-, rendered⟩, ⟨_, _, rfl, rfl, rfl⟩, rfl⟩, rfl⟩ := writes
      refine ⟨inner, rendered, ?_⟩
      rw [if_pos block, String.append_empty, ← String.append_assoc]
      rfl
  · next bare =>
      obtain ⟨_, inner, word, rendered, rfl⟩ := Layout.writes_next_iff.mp writes
      refine ⟨inner, Layout.writes_visit_iff.mp (Layout.writes_wanting_iff.mp rendered).2, ?_⟩
      rw [Layout.writes_word_iff.mp word, if_neg bare]

/-- A condition with a test and a consequent misses nothing. -/
theorem condition_missNothing (kind : node.kind = "IfStatement") (test : node.has "test" = true)
    (consequent : node.has "consequent" = true) : MissNothing (node.tasks options position) := by
  have known : Construct.ofKind? node.kind = some .ifStatement := by
    rw [kind]
    rfl
  obtain ⟨condition, found⟩ := Option.isSome_iff_exists.mp test
  obtain ⟨block, held⟩ := Option.isSome_iff_exists.mp consequent
  rw [Node.tasks_eq known]
  simp only [Construct.tasks, Construct.parts, List.flatMap_cons, List.flatMap_nil,
    List.append_nil, Part.tasks, Task.needed, Node.require, found, held]
  exact .append (.child _ _) (.append (.text _ _)
    (.optional fun _ => .shaped fun _ => .text _ _))

/-! ## Plain branches -/

section Plain

variable (names : options.IsPlain (Text.Avoids Text.delimiters)) (readable : node.Readable)
  (tree : node.IsPlainTree (Text.Avoids Text.delimiters))
include names readable tree

/-- A declarator of a name is written as its variable. -/
theorem Node.DeclaresName.isDeclaredAs (declares : node.DeclaresName)
    (rendered : (render options (.node node) position).outcome = .ok text) :
    node.IsDeclaredAs text := by
  have known : Construct.ofKind? node.kind = some .variableDeclarator := by
    rw [declares.kind]
    rfl
  obtain ⟨name, target, identifier, named⟩ := declares.target
  have quietName : Text.IsQuiet ("$" ++ name.name) :=
    (Text.IsQuiet.of_avoids (by decide)).append
      (.of_avoids (((tree.child target).plain.name Text.undelimited).mono Text.blockMarks_subset))
  cases found : node.field? "init" with
  | none =>
      have bare : node.has "init" = false := by simp [Node.has, found]
      have writes : (Construct.variableDeclarator.layout options node position).Writes
          (render options) ("$" ++ name.name) := by
        simp [Construct.layout, Layout.optionalChild, Layout.optional, found,
          Node.field?_node target, render_variable options identifier named node]
      rw [render_of_construct_writes known writes] at rendered
      obtain rfl := Except.ok.inj rendered
      refine ⟨name.name, quietName, ?_⟩
      simp [Fragment.terminated, Construct.owesTerminator, bare]
  | some value =>
      obtain ⟨child, held, expression⟩ := Node.IsPlainTree.operand readable tree known
        (List.mem_cons_of_mem _ (List.mem_singleton_self _)) (List.mem_singleton_self _)
        declares.init found
      obtain ⟨inner, has, quiet⟩ := expression.exists_text names
      have ended : (render options (.node node) position).outcome = _ :=
        (expression.endsOnce has quiet).declarator declares.kind target identifier named
          held
      obtain rfl := Except.ok.inj (rendered.symm.trans ended)
      refine ⟨name.name ++ (" = " ++ inner), ?_, ?_⟩
      · rw [← String.append_assoc]
        exact quietName.append ((Text.IsQuiet.of_avoids (by decide)).append quiet)
      · simp [Node.has_of_node held, String.append_assoc]

/-- The declarators of a declaration of names are written as their variables. -/
theorem declared_items (kind : node.kind = "VariableDeclaration")
    (declares : ∀ declarator ∈ Node.nodesOf (node.field "declarations"), declarator.DeclaresName)
    {items : List Value} (held : node.field "declarations" = .list items) :
    ∀ item ∈ items, ∃ declarator, item = .node declarator ∧ ∀ text,
      (render options item position).outcome = .ok text → declarator.IsDeclaredAs text := by
  intro item inside
  have known : Construct.ofKind? node.kind = some .variableDeclaration := by
    rw [kind]
    rfl
  have listed : (node.field "declarations").items = .ok items := by
    rw [held]
    rfl
  have fulfils := (Node.readable_iff_parts known).mp readable _ (List.mem_singleton_self _)
    ⟨"declarations", .nodes, .rendered⟩ (List.mem_singleton_self _)
  obtain ⟨declarator, rfl, roles⟩ := fulfils.node_of_item (.inl rfl) listed inside
  have among : declarator ∈ Node.nodesOf (node.field "declarations") := by
    rw [held]
    exact List.mem_filterMap.mpr ⟨_, inside, rfl⟩
  exact ⟨declarator, rfl, fun text =>
    (declares declarator among).isDeclaredAs names roles (tree.inner _ among)⟩

/-- A declaration of names is one statement exactly when its last variable, and no other, has
an initial value. -/
theorem declaration_isOneBranch_iff (kind : node.kind = "VariableDeclaration")
    (declares : ∀ declarator ∈ Node.nodesOf (node.field "declarations"), declarator.DeclaresName)
    (rendered : (render options (.node node) position).outcome = .ok text)
    (blank : ending.toList.all Text.isBlank = true) :
    Text.IsOneStatement (text ++ ending) ↔ node.IsOneBranch options position := by
  have known : Construct.ofKind? node.kind = some .variableDeclaration := by
    rw [kind]
    rfl
  rw [Node.IsOneBranch.declaration_iff kind]
  have fulfils := (Node.readable_iff_parts known).mp readable _ (List.mem_singleton_self _)
    ⟨"declarations", .nodes, .rendered⟩ (List.mem_singleton_self _)
  cases found : node.field? "declarations" with
  | none =>
      have nothing : text = "" := by
        rcases render_cases rendered with none | ⟨written, writes, -⟩
        · exact none
        · rw [Node.layout_eq known] at writes
          obtain ⟨value, other, -⟩ := Layout.writes_needed_iff.mp writes
          cases found.symm.trans other
      rw [nothing, String.empty_append, Node.field?_eq_none_iff.mp found]
      exact iff_of_false (Text.not_isOneStatement_of_blank blank) (by rintro ⟨⟩)
  | some list =>
      obtain ⟨items, rfl⟩ := fulfils.items_of_field? (.inl rfl) found
      have held := Node.field_of_field? found
      have fine : MissNothing (node.tasks options position) := by
        rw [Node.tasks_eq known]
        simp only [Construct.tasks, Construct.parts, List.flatMap_cons, List.flatMap_nil,
          List.append_nil, Part.tasks, Task.needed, Node.require, found]
        exact .wanting (.shaped fun _ => .items _ _ _ _)
      obtain ⟨written, writes, rfl⟩ := (render_ok_iff fine).mp rendered
      rw [Node.layout_eq known] at writes
      obtain ⟨_, same, writes⟩ := Layout.writes_needed_iff.mp writes
      cases found.symm.trans same
      obtain ⟨yield, inside⟩ := Layout.writes_wanting_iff.mp writes
      obtain ⟨texts, all, rfl⟩ := Layout.Writes.exists_joined inside
      have slots := Layout.rendered_of_writes_slots all (List.all_eq_true.mp yield)
      have declared := declared_of_rendered (slots.imp fun _ _ => And.right)
        (declared_items names readable tree kind declares held)
      rw [Node.owesTerminator_eq known, held]
      exact declared_isOneStatement_iff declared blank

/-- The text of a condition that misses nothing: its header and its block, and the text of its
alternate behind them. -/
theorem condition_text (kind : node.kind = "IfStatement") (usable : position.IsUsable)
    (plain : position.HasPlainSource (Text.Avoids Text.delimiters))
    (fine : MissNothing (node.tasks options position))
    (rendered : (render options (.node node) position).outcome = .ok text) :
    ∃ test consequent after last, Text.IsBalanced test ∧ Text.IsBalanced consequent ∧
      last.toList.all Text.isBlank = true ∧
      (Layout.alternate node).Writes (render options) after ∧
      text = "if (" ++ (test ++ (") \x7b\n" ++ (consequent ++ ("\x7d" ++ (after ++ last))))) := by
  have known : Construct.ofKind? node.kind = some .ifStatement := by
    rw [kind]
    rfl
  have slots := Node.slots_balanced names readable tree usable plain
  obtain ⟨written, writes, rfl⟩ := (render_ok_iff fine).mp rendered
  rw [Node.layout_eq known] at writes slots
  rw [Node.owesTerminator_eq known]
  cases writes with
  | @line _ whole inner =>
      simp only [Layout.writes_joined_cons_iff, Layout.writes_joined_nil_iff,
        Layout.writes_word_iff, Layout.writes_child_iff, Layout.writes_text_iff] at inner
      obtain ⟨_, _, rfl, ⟨test, _, ⟨condition, found, one⟩, ⟨_, _, rfl, ⟨consequent, _,
        ⟨body, held, -, two⟩, ⟨_, _, rfl, ⟨after, _, alternate, rfl, rfl⟩, rfl⟩, rfl⟩, rfl⟩, rfl⟩,
        rfl⟩ := inner
      obtain ⟨last, blank, ended⟩ := Text.exists_blank_endLine
        ("if (" ++ (test ++ (") \x7b\n" ++ (consequent ++ ("\x7d" ++ (after ++ ""))))))
      refine ⟨test, consequent, after, last, slots (.field "test") _ _ ?_ _ one,
        slots (.field "consequent") _ _ ?_ _ two, blank, alternate, ?_⟩
      · simp [Construct.layout, Layout.tasks, Layout.joined, Layout.child, Layout.needed,
          Node.require, found]
      · simp [Construct.layout, Layout.tasks, Layout.joined, Layout.text, Layout.needed,
          Layout.tasks_wanting, Task.visit_mem_wanting_iff, Node.require, held]
      · rw [ended]
        simp [Fragment.terminated, Construct.owesTerminator, String.append_assoc]

/-- The text of a condition with an alternate. -/
theorem alternative_text (kind : node.kind = "IfStatement") (usable : position.IsUsable)
    (plain : position.HasPlainSource (Text.Avoids Text.delimiters))
    (fine : MissNothing (node.tasks options position)) {other : Node}
    (held : node.field? "alternate" = some (.node other))
    (rendered : (render options (.node node) position).outcome = .ok text) :
    ∃ test consequent inner last, Text.IsBalanced test ∧ Text.IsBalanced consequent ∧
      last.toList.all Text.isBlank = true ∧
      (render options (.node other) (.within node)).outcome = .ok inner ∧
      text = "if (" ++ (test ++ (") \x7b\n" ++ (consequent ++ ("\x7d else " ++
        (other.branchText inner ++ last))))) := by
  obtain ⟨test, consequent, _, last, before, inside, blank, writes, rfl⟩ :=
    condition_text names readable tree kind usable plain fine rendered
  obtain ⟨inner, below, rfl⟩ := alternate_text held writes
  refine ⟨test, consequent, inner, last, before, inside, blank, below, ?_⟩
  have joins (rest : String) : "\x7d else " ++ rest = "\x7d" ++ (" else " ++ rest) :=
    (String.append_assoc : "\x7d" ++ " else " ++ rest = _)
  rw [joins, String.append_assoc]

/-- A condition is written as one statement if its branch is, in case it has one. -/
theorem condition_isOneBranch_iff (kind : node.kind = "IfStatement") (usable : position.IsUsable)
    (plain : position.HasPlainSource (Text.Avoids Text.delimiters))
    (branches : ∀ other, node.field? "alternate" = some (.node other) → other.Readable →
      ∀ inner last, (render options (.node other) (.within node)).outcome = .ok inner →
        last.toList.all Text.isBlank = true →
        (Text.IsOneStatement (other.branchText inner ++ last) ↔
          other.IsOneBranch options (.within node)))
    (rendered : (render options (.node node) position).outcome = .ok text)
    (blank : ending.toList.all Text.isBlank = true) :
    Text.IsOneStatement (text ++ ending) ↔ node.IsOneBranch options position := by
  have known : Construct.ofKind? node.kind = some .ifStatement := by
    rw [kind]
    rfl
  rw [Node.IsOneBranch.condition_iff kind]
  by_cases fine : MissNothing (node.tasks options position)
  · cases found : node.field? "alternate" with
    | none =>
        obtain ⟨test, consequent, after, last, before, inside, blankLast, writes, rfl⟩ :=
          condition_text names readable tree kind usable plain fine rendered
        simp only [Layout.alternate, Layout.optional, found, Layout.writes_word_iff] at writes
        have whole :=
          Text.isOneStatement_condition before inside (Text.blanks_append blankLast blank)
        refine iff_of_true ?_ ⟨fine, by rintro value ⟨⟩⟩
        simpa [writes, String.append_assoc] using whole
    | some value =>
        have fulfils := (Node.readable_iff_parts known).mp readable .alternate (by decide)
          ⟨"alternate", .node, .rendered⟩ (List.mem_singleton_self _)
        obtain ⟨other, rfl, roles⟩ := fulfils.node_of_field? (.inl rfl) found
        obtain ⟨test, consequent, inner, last, before, inside, blankLast, below, rfl⟩ :=
          alternative_text names readable tree kind usable plain fine found rendered
        have branch :=
          branches other found roles inner _ below (Text.blanks_append blankLast blank)
        simp only [String.append_assoc]
        rw [Text.isOneStatement_alternative_iff before inside, branch]
        simp [fine]
  · rw [render_eq_empty_of_missing fine rendered, String.empty_append]
    exact iff_of_false (Text.not_isOneStatement_of_blank blank) fun one => fine one.1

/-! ## Branches of all kinds -/

omit readable tree in
/-- A branch is written as one statement in exactly the cases that are listed, by induction on
the conditions that it ends in. -/
theorem branch_isOneStatement_iff (branch : node.IsBranch options position)
    (readable : node.Readable) (tree : node.IsPlainTree (Text.Avoids Text.delimiters))
    (usable : position.IsUsable) (plain : position.HasPlainSource (Text.Avoids Text.delimiters))
    (rendered : (render options (.node node) position).outcome = .ok text)
    (blank : ending.toList.all Text.isBlank = true) :
    Text.IsOneStatement (node.branchText text ++ ending) ↔ node.IsOneBranch options position := by
  induction branch generalizing text ending with
  | @block node position kind =>
      have balanced := Node.text_isBalanced names readable tree usable plain rendered
      refine iff_of_true ?_ (.block kind)
      rw [Node.branchText, if_pos kind, String.append_assoc, String.append_assoc]
      exact Text.isOneStatement_block balanced blank
  | @unsupported node position unknown =>
      have ruled : ∀ kind ∈ ["BlockStatement", "VariableDeclaration", "IfStatement"] ++
          Node.singleStatements, Construct.ofKind? kind ≠ none := by decide
      have other : node.kind ≠ "BlockStatement" := by
        intro kind
        exact ruled node.kind (by rw [kind]; decide) unknown
      rw [Node.branchText_eq other, render_eq_empty_of_unknown unknown rendered,
        String.empty_append]
      refine iff_of_false (Text.not_isOneStatement_of_blank blank) ?_
      exact Node.IsOneBranch.not_of_kind fun listed => ruled _ listed unknown
  | expression kind operand plainly =>
      rw [Node.branchText_eq (by rw [kind]; decide)]
      exact expression_isOneBranch_iff names readable tree rendered blank kind operand
        (plainly text rendered)
  | result kind operand =>
      rw [Node.branchText_eq (by rw [kind]; decide)]
      exact result_isOneBranch_iff names readable tree rendered blank kind operand
  | leave kind =>
      rw [Node.branchText_eq (by rw [kind]; decide)]
      exact leave_isOneBranch_iff kind rendered blank
  | counting kind =>
      rw [Node.branchText_eq (by rw [kind]; decide)]
      exact counting_isOneBranch_iff names readable tree usable plain rendered blank kind
  | keys kind =>
      rw [Node.branchText_eq (by rw [kind]; decide)]
      exact keys_isOneBranch_iff names readable tree usable plain rendered blank kind
  | selection kind =>
      rw [Node.branchText_eq (by rw [kind]; decide)]
      exact selection_isOneBranch_iff names readable tree usable plain rendered blank kind
  | declaration kind declares =>
      rw [Node.branchText_eq (by rw [kind]; decide)]
      exact declaration_isOneBranch_iff names readable tree kind declares rendered blank
  | function kind =>
      rw [Node.branchText_eq (by rw [kind]; decide)]
      refine iff_of_false (function_not_isOneStatement kind rendered blank) ?_
      exact Node.IsOneBranch.not_of_kind (by rw [kind]; decide)
  | condition kind alternate ih =>
      rw [Node.branchText_eq (by rw [kind]; decide)]
      refine condition_isOneBranch_iff names readable tree kind usable plain ?_ rendered blank
      intro other held roles inner last below blankLast
      exact ih other held roles (tree.child (Node.field_of_field? held))
        (Position.within_isUsable _)
        ((Position.IsBelow.within _).hasPlainSource Text.undelimited tree) below blankLast

/-! ## Alternates of conditions -/

/-- A condition with an alternate is its header and its block, the word `else` and a text. That
text is one statement if its branch is written as one, and it is none otherwise. A branch that is
left out leaves blanks. -/
theorem alternate_is_one_statement_iff (kind : node.kind = "IfStatement")
    (test : node.has "test" = true) (consequent : node.has "consequent" = true)
    (usable : position.IsUsable) (plain : position.HasPlainSource (Text.Avoids Text.delimiters))
    {other : Node} (held : node.field "alternate" = .node other)
    (branch : other.IsBranch options (.within node)) :
    ∃ header block after, Text.IsBalanced header ∧ Text.IsBalanced block ∧
      (render options (.node node) position).outcome =
        .ok ("if (" ++ (header ++ (") \x7b\n" ++ (block ++ ("\x7d else " ++ after))))) ∧
      (Text.IsOneStatement after ↔ other.IsOneBranch options (.within node)) ∧
      (other.kind ≠ "BlockStatement" →
        Construct.ofKind? other.kind = none ∨ ¬ MissNothing (other.tasks options (.within node)) →
        after.toList.all Text.isBlank = true) := by
  have known : Construct.ofKind? node.kind = some .ifStatement := by
    rw [kind]
    rfl
  have fine : MissNothing (node.tasks options position) :=
    condition_missNothing kind test consequent
  have fulfils := (Node.readable_iff_parts known).mp readable .alternate (by decide)
    ⟨"alternate", .node, .rendered⟩ (List.mem_singleton_self _)
  have found := Node.field?_node held
  obtain ⟨_, ⟨⟩, roles⟩ := fulfils.node_of_field? (.inl rfl) found
  obtain ⟨text, rendered⟩ := (render_isSafe options readable usable).outcome
  obtain ⟨header, block, inner, last, before, inside, blank, below, rfl⟩ :=
    alternative_text names readable tree kind usable plain fine found rendered
  refine ⟨header, block, _, before, inside, rendered, ?_, fun bare left => ?_⟩
  · exact branch_isOneStatement_iff names branch roles (tree.child held)
      (Position.within_isUsable node)
      ((Position.IsBelow.within node).hasPlainSource Text.undelimited tree) below blank
  · have nothing : inner = "" := by
      rcases left with unknown | missing
      · exact render_eq_empty_of_unknown unknown below
      · exact render_eq_empty_of_missing missing below
    rw [Node.branchText_eq bare, nothing, String.empty_append]
    exact blank

end Plain

/-! ## Sample trees -/

def alternatingNode (other : Node) : Node :=
  ⟨⟨0, []⟩, "IfStatement",
    [("test", .node (variableNode "a")), ("consequent", .node (statementsNode "BlockStatement" [])),
      ("alternate", .node other)],
    none⟩

def lostLoop : Node :=
  ⟨⟨0, []⟩, "WhileStatement", [], none⟩

theorem initialisedNode_declaresName {entry : String × String} (named : entry.1 ≠ "") :
    (initialisedNode entry).DeclaresName where
  kind := rfl
  target := ⟨variableNode entry.1, rfl, rfl, named⟩
  init := List.forall_mem_singleton.mpr (numberNode_isExpression entry.2)

/-- A loop without a rule leaves nothing behind the word `else`, and two variables with initial
values are more than one statement. -/
theorem alternatingNode_goes_astray :
    (∃ header block after, (render {} (.node (alternatingNode lostLoop)) {}).outcome =
        .ok ("if (" ++ (header ++ (") \x7b\n" ++ (block ++ ("\x7d else " ++ after))))) ∧
      ¬ Text.IsOneStatement after ∧ after.toList.all Text.isBlank = true) ∧
    ∃ header block after,
      (render {} (.node (alternatingNode (declarationNode [("b", "1"), ("c", "2")]))) {}).outcome =
        .ok ("if (" ++ (header ++ (") \x7b\n" ++ (block ++ ("\x7d else " ++ after))))) ∧
      ¬ Text.IsOneStatement after := by
  have names : Options.IsPlain (Text.Avoids Text.delimiters) {} := ⟨by decide, by decide, by decide⟩
  have usable : Position.IsUsable {} := ⟨rfl, ImportSource.noConfusion⟩
  have plain : Position.HasPlainSource (Text.Avoids Text.delimiters) {} :=
    fun _ => ImportSource.noConfusion
  constructor
  · have readable : (alternatingNode lostLoop).Readable := Node.readable_of_check 3 (by decide)
    have tree : (alternatingNode lostLoop).IsPlainTree (Text.Avoids Text.delimiters) :=
      Node.isPlainTree_of_check 3 (by decide)
    obtain ⟨header, block, after, -, -, rendered, one, left⟩ :=
      alternate_is_one_statement_iff names readable tree rfl rfl rfl usable plain rfl
        (.unsupported rfl)
    exact ⟨header, block, after, rendered,
      fun whole => Node.IsOneBranch.not_of_kind (by decide) (one.mp whole),
      left (by decide) (.inl rfl)⟩
  · let pair : Node := declarationNode [("b", "1"), ("c", "2")]
    have readable : (alternatingNode pair).Readable := Node.readable_of_check 4 (by decide)
    have tree : (alternatingNode pair).IsPlainTree (Text.Avoids Text.delimiters) :=
      Node.isPlainTree_of_check 4 (by decide)
    have declares : ∀ declarator ∈ Node.nodesOf (pair.field "declarations"),
        declarator.DeclaresName :=
      List.forall_mem_cons.mpr ⟨initialisedNode_declaresName (by decide),
        List.forall_mem_singleton.mpr (initialisedNode_declaresName (by decide))⟩
    obtain ⟨header, block, after, -, -, rendered, one, -⟩ :=
      alternate_is_one_statement_iff names readable tree rfl rfl rfl usable plain rfl
        (.declaration rfl declares)
    refine ⟨header, block, after, rendered, fun whole => ?_⟩
    cases (Node.IsOneBranch.declaration_iff rfl).mp (one.mp whole) with
    | cons bare _ => cases bare

end PhpRendering
