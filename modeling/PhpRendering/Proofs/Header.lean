import PhpRendering.Proofs.Operand

/-!
# Headers of statements

Statements that branch or loop have a header before their blocks. Nothing ends in the
header of a conditional, a selection or a case, and exactly two clauses end in the header
of a counting loop. A loop over keys has a quiet header when its left side declares no
initial value before its last variable.
-/

namespace PhpRendering

variable {options : Options} {node : Node} {position : Position}

/-! ## Headers around an expression -/

/-- What the statements that branch put around the text of an expression. -/
structure Node.HeadsQuietly (options : Options) (node : Node) (text : String) : Prop where
  conditional : ∀ {parent : Node} {position : Position}, parent.kind = "IfStatement" →
    parent.field "test" = .node node → parent.has "consequent" = true → parent.Readable →
    position.IsUsable →
    ∃ rest, (render options (.node parent) position).outcome =
      .ok ("if (" ++ text ++ ")" ++ (" \x7b\n" ++ rest))
  selection : ∀ {parent : Node} {position : Position}, parent.kind = "SwitchStatement" →
    parent.field "discriminant" = .node node → parent.Readable → position.IsUsable →
    ∃ rest, (render options (.node parent) position).outcome =
      .ok ("switch (" ++ text ++ ")" ++ (" \x7b\n" ++ rest))
  clause : ∀ {parent : Node} {position : Position}, parent.kind = "SwitchCase" →
    parent.field "test" = .node node → parent.Readable → position.IsUsable →
    ∃ rest, (render options (.node parent) position).outcome =
      .ok ("case " ++ text ++ ":" ++ ("\n" ++ rest))
  ends : Text.ends ("if (" ++ text ++ ")") = 0 ∧ Text.ends ("switch (" ++ text ++ ")") = 0 ∧
    Text.ends ("case " ++ text ++ ":") = 0

/-- A header closes before its block opens. -/
theorem Text.close_append_block (rest : String) :
    ") \x7b\n" ++ rest = ")" ++ (" \x7b\n" ++ rest) :=
  (String.append_assoc : ")" ++ " \x7b\n" ++ rest = _)

theorem exists_endLine (text : String) : ∃ ending, endLine text = text ++ ending := by
  unfold endLine
  split
  · exact ⟨"", String.append_empty.symm⟩
  · exact ⟨"\n", rfl⟩

/-- A required expression has its text in the layout of a parent. -/
theorem Node.HasText.of_child {text slot : String} (has : node.HasText options text)
    {parent : Node} {field : String} (held : parent.field field = .node node)
    (value : parent.kind ≠ "UpdateExpression") (other : parent.kind ≠ "ExpressionStatement")
    (writes : (Layout.child parent field).Writes (render options) slot) : slot = text := by
  obtain ⟨found, same, rendered⟩ := Layout.writes_child_iff.mp writes
  cases (Node.field?_node held).symm.trans same
  exact Except.ok.inj (rendered.symm.trans (has.within value other))

theorem Node.has_of_node {child : Node} {field : String} (held : node.field field = .node child) :
    node.has field = true := by
  simp [Node.has, Node.field?_node held]

theorem Node.HasText.conditional {text : String} (has : node.HasText options text) {parent : Node}
    (kind : parent.kind = "IfStatement") (held : parent.field "test" = .node node)
    (branch : parent.has "consequent" = true) (readable : parent.Readable)
    (usable : position.IsUsable) :
    ∃ rest, (render options (.node parent) position).outcome =
      .ok ("if (" ++ text ++ ")" ++ (" \x7b\n" ++ rest)) := by
  have known : Construct.ofKind? parent.kind = some .ifStatement := by
    rw [kind]
    rfl
  have parts : ∀ part ∈ Construct.ifStatement.parts,
      part.IsMet options parent position := by
    simp [Construct.parts, Part.IsMet, Node.has_of_node held, branch]
  obtain ⟨written, writes⟩ := Node.exists_writes known (by decide) readable usable parts
  rw [render_of_construct_writes known writes]
  cases writes with
  | @line _ whole inner =>
      simp only [Layout.writes_joined_cons_iff, Layout.writes_word_iff] at inner
      obtain ⟨_, _, rfl, ⟨slot, _, test, ⟨_, rest, rfl, -, rfl⟩, rfl⟩, rfl⟩ := inner
      obtain rfl := has.of_child held (by rw [kind]; decide) (by rw [kind]; decide) test
      obtain ⟨ending, ended⟩ := exists_endLine ("if (" ++ (slot ++ (") \x7b\n" ++ rest)))
      refine ⟨rest ++ ending, congrArg _ ?_⟩
      rw [ended, Text.close_append_block]
      simp [Fragment.terminated, Construct.owesTerminator, String.append_assoc]

theorem Node.HasText.selection {text : String} (has : node.HasText options text) {parent : Node}
    (kind : parent.kind = "SwitchStatement") (held : parent.field "discriminant" = .node node)
    (readable : parent.Readable) (usable : position.IsUsable) :
    ∃ rest, (render options (.node parent) position).outcome =
      .ok ("switch (" ++ text ++ ")" ++ (" \x7b\n" ++ rest)) := by
  have known : Construct.ofKind? parent.kind = some .switchStatement := by
    rw [kind]
    rfl
  have parts : ∀ part ∈ Construct.switchStatement.parts,
      part.IsMet options parent position := by
    simp [Construct.parts, Part.IsMet, Node.has_of_node held]
  obtain ⟨written, writes⟩ := Node.exists_writes known (by decide) readable usable parts
  rw [render_of_construct_writes known writes]
  simp only [Construct.layout, Layout.writes_joined_cons_iff, Layout.writes_word_iff] at writes
  obtain ⟨_, _, rfl, ⟨slot, _, test, ⟨_, rest, rfl, -, rfl⟩, rfl⟩, rfl⟩ := writes
  obtain rfl := has.of_child held (by rw [kind]; decide) (by rw [kind]; decide) test
  refine ⟨rest, congrArg _ ?_⟩
  rw [Text.close_append_block]
  simp [Fragment.terminated, Construct.owesTerminator, String.append_assoc]

theorem Node.HasText.clause {text : String} (has : node.HasText options text) {parent : Node}
    (kind : parent.kind = "SwitchCase") (held : parent.field "test" = .node node)
    (readable : parent.Readable) (usable : position.IsUsable) :
    ∃ rest, (render options (.node parent) position).outcome =
      .ok ("case " ++ text ++ ":" ++ ("\n" ++ rest)) := by
  have known : Construct.ofKind? parent.kind = some .switchCase := by
    rw [kind]
    rfl
  have parts : ∀ part ∈ Construct.switchCase.parts,
      part.IsMet options parent position := by
    simp [Construct.parts, Part.IsMet]
  obtain ⟨written, writes⟩ := Node.exists_writes known (by decide) readable usable parts
  rw [render_of_construct_writes known writes]
  simp only [Construct.layout, Layout.optionalChild, Layout.optional, Node.field?_node held,
    Layout.writes_next_iff, Layout.writes_joined_cons_iff, Layout.writes_joined_nil_iff,
    Layout.writes_word_iff, Layout.writes_visit_iff] at writes
  obtain ⟨_, rest, ⟨_, _, rfl, ⟨slot, _, rendered, ⟨_, _, rfl, rfl, rfl⟩, rfl⟩, rfl⟩, -, rfl⟩ :=
    writes
  have same := rendered.symm.trans (has.within (by rw [kind]; decide) (by rw [kind]; decide))
  obtain rfl := Except.ok.inj same
  have label : ":\n" ++ rest = ":" ++ ("\n" ++ rest) :=
    (String.append_assoc : ":" ++ "\n" ++ rest = _)
  refine ⟨rest, congrArg _ ?_⟩
  simp [Fragment.terminated, Construct.owesTerminator, String.append_assoc, label]

theorem Node.HasText.headsQuietly {text : String} (has : node.HasText options text)
    (quiet : Text.IsQuiet text) : node.HeadsQuietly options text where
  conditional kind held branch readable usable :=
    has.conditional kind held branch readable usable
  selection kind held readable usable := has.selection kind held readable usable
  clause kind held readable usable := has.clause kind held readable usable
  ends := by
    have around {before after : String} (opens : Text.Avoids Text.blockMarks before)
        (closes : Text.Avoids Text.blockMarks after) : Text.ends (before ++ text ++ after) = 0 :=
      (((Text.IsQuiet.of_avoids opens).append quiet).append (.of_avoids closes)).ends_eq_zero
    exact ⟨around (by decide) (by decide), around (by decide) (by decide),
      around (by decide) (by decide)⟩

/-! ## Headers of loops -/

structure Node.IsVariables (node : Node) : Prop where
  kind : node.kind = "VariableDeclaration"
  declares : node.has "declarations" = true
  declarators : ∀ declarator ∈ Node.nodesOf (node.field "declarations"),
    declarator.kind = "VariableDeclarator" ∧ ∀ field ∈ ["id", "init"],
      ∀ child ∈ Node.nodesOf (declarator.field field), child.IsExpression

/-- A declarator is quiet without its terminator. -/
theorem Text.withoutTerminator_isQuiet {text : String}
    (cases : IsQuiet text ∨ ∃ written, IsQuiet written ∧ text = written ++ terminator) :
    IsQuiet (withoutTerminator text) := by
  rcases cases with quiet | ⟨written, quiet, rfl⟩
  · rwa [withoutTerminator_eq quiet.isTerminated_eq_false]
  · rwa [withoutTerminator_append_terminator]

/-- Quiet texts separated by commas are quiet. -/
theorem Text.IsQuiet.separated {render : Renderer} {layouts : List Layout}
    (each : ∀ layout ∈ layouts, ∀ text, layout.Writes render text → IsQuiet text) {text : String}
    (writes : (Layout.separatedBy ", " layouts).Writes render text) : IsQuiet text := by
  induction layouts generalizing text with
  | nil =>
      rw [Layout.writes_word_iff.mp writes]
      exact .of_avoids (by decide)
  | cons first rest ih =>
      obtain ⟨head, tail⟩ := List.forall_mem_cons.mp each
      cases rest with
      | nil => exact head text writes
      | cons second rest =>
          obtain ⟨_, _, one, others, rfl⟩ := Layout.writes_next_iff.mp writes
          obtain ⟨_, _, comma, last, rfl⟩ := Layout.writes_next_iff.mp others
          rw [Layout.writes_word_iff.mp comma]
          exact (head _ one).append ((Text.IsQuiet.of_avoids (by decide)).append (ih tail last))

section

variable (names : options.IsPlain (Text.Avoids Text.delimiters))
include names

/-- An operand of a plain node that is no statement has a quiet text. -/
theorem Node.IsPlainTree.quiet_child (tree : node.IsPlainTree (Text.Avoids Text.delimiters))
    (other : node.kind ≠ "ExpressionStatement") {field : String} {child : Node}
    (held : node.field field = .node child) (expression : child.IsExpression)
    (readable : child.Readable) {slot : String}
    (rendered : (render options (.node child) (.within node)).outcome = .ok slot) :
    Text.IsQuiet slot :=
  render_isQuiet names expression.isPhrase readable (tree.child held)
    (Position.within_isUsable node) (beq_eq_false_iff_ne.mpr other)
    ((Position.IsBelow.within node).hasPlainSource Text.undelimited tree) rendered

/-- A declarator has a quiet text, with a terminator when it has an initial value. -/
theorem declarator_cases (tree : node.IsPlainTree (Text.Avoids Text.delimiters))
    (readable : node.Readable) (kind : node.kind = "VariableDeclarator")
    (expressions : ∀ field ∈ ["id", "init"], ∀ child ∈ Node.nodesOf (node.field field),
      child.IsExpression)
    {text : String} (rendered : (render options (.node node) position).outcome = .ok text) :
    Text.IsQuiet text ∨
      node.has "init" = true ∧ ∃ written, Text.IsQuiet written ∧ text = written ++ terminator := by
  have known : Construct.ofKind? node.kind = some .variableDeclarator := by
    rw [kind]
    rfl
  have slot {part : Part} {field slot : String} {value : Value}
      (listed : part ∈ Construct.variableDeclarator.parts)
      (read : ⟨field, .node, .rendered⟩ ∈ part.readings) (among : field ∈ ["id", "init"])
      (found : node.field? field = some value)
      (inside : (render options value (.within node)).outcome = .ok slot) : Text.IsQuiet slot := by
    have fulfils := (Node.readable_iff_parts known).mp readable part listed _ read
    obtain ⟨child, rfl, roles⟩ := fulfils.node_of_field? (.inl rfl) found
    have held := Node.field_of_field? found
    refine tree.quiet_child names (by rw [kind]; decide) held (expressions field among child ?_)
      roles inside
    rw [held]
    exact List.mem_singleton_self _
  rcases render_cases rendered with rfl | ⟨written, writes, rfl⟩
  · exact .inl (.of_avoids (by decide))
  rw [node.layout_eq known] at writes
  obtain ⟨target, ending, one, other, rfl⟩ := Layout.writes_next_iff.mp writes
  obtain ⟨value, found, inside⟩ := Layout.writes_child_iff.mp one
  have quiet := slot (List.mem_cons_self ..) (List.mem_singleton_self _) (by decide) found inside
  rw [node.owesTerminator_eq known]
  cases given : node.field? "init" with
  | none =>
      simp only [Layout.optionalChild, Layout.optional, given, Layout.writes_word_iff] at other
      subst other
      left
      simpa [Fragment.terminated, Construct.owesTerminator, Node.has, given] using quiet
  | some init =>
      simp only [Layout.optionalChild, Layout.optional, given, Layout.writes_joined_cons_iff,
        Layout.writes_joined_nil_iff, Layout.writes_word_iff, Layout.writes_visit_iff] at other
      obtain ⟨_, _, rfl, ⟨inner, _, within, ⟨_, _, rfl, rfl, rfl⟩, rfl⟩, rfl⟩ := other
      have quietInit := slot (List.mem_cons_of_mem _ (List.mem_singleton_self _))
        (List.mem_singleton_self _) (by decide) given within
      have assigned : Text.IsQuiet (target ++ (" = " ++ inner)) :=
        quiet.append ((Text.IsQuiet.of_avoids (by decide)).append quietInit)
      have has : node.has "init" = true := by simp [Node.has, given]
      refine .inr ⟨has, _, assigned, ?_⟩
      have ended := Text.terminated_statement assigned.isTerminated_eq_false
      simpa [Construct.owesTerminator, has] using ended

/-- The declarators of a readable declaration, which stands inside a plain node. -/
theorem Node.IsVariables.declarator_cases (declaration : node.IsVariables) (readable : node.Readable)
    (tree : node.IsPlainTree (Text.Avoids Text.delimiters)) {items : List Value}
    (listed : (node.field "declarations").items = .ok items) {item : Value} (inside : item ∈ items) :
    ∃ declarator, item = .node declarator ∧ ∀ text,
      (render options item position).outcome = .ok text →
      Text.IsQuiet text ∨ declarator.has "init" = true ∧
        ∃ written, Text.IsQuiet written ∧ text = written ++ terminator := by
  have known : Construct.ofKind? node.kind = some .variableDeclaration := by
    rw [declaration.kind]
    rfl
  have fulfils := (Node.readable_iff_parts known).mp readable _ (List.mem_singleton_self _)
    ⟨"declarations", .nodes, .rendered⟩ (List.mem_singleton_self _)
  obtain ⟨declarator, rfl, roles⟩ := fulfils.node_of_item (.inl rfl) listed inside
  have held : declarator ∈ Node.nodesOf (node.field "declarations") := by
    rw [Value.eq_list_of_items listed inside]
    exact List.mem_filterMap.mpr ⟨_, inside, rfl⟩
  obtain ⟨kind, expressions⟩ := declaration.declarators declarator held
  exact ⟨declarator, rfl, fun text rendered =>
    PhpRendering.declarator_cases names (tree.inner _ held) roles kind expressions rendered⟩

/-- The first clause of a counting loop is quiet. -/
theorem loopInit_isQuiet {loop start : Node} (kind : loop.kind = "ForStatement")
    (readable : loop.Readable) (tree : loop.IsPlainTree (Text.Avoids Text.delimiters))
    (held : loop.field "init" = .node start) (clause : start.IsExpression ∨ start.IsVariables)
    {text : String} (writes : (Layout.loopInit loop (.node start)).Writes (render options) text) :
    Text.IsQuiet text := by
  have known : Construct.ofKind? loop.kind = some .forStatement := by
    rw [kind]
    rfl
  have fulfils := (Node.readable_iff_parts known).mp readable .loopStart (by decide)
    ⟨"init", .node, .rendered⟩ (List.mem_singleton_self _)
  obtain ⟨_, ⟨⟩, roles⟩ := fulfils.node_of_field? (.inl rfl) (Node.field?_node held)
  simp only [Layout.loopInit, Value.asNode, Layout.shaped] at writes
  rcases clause with expression | declaration
  · have other : start.kind ≠ "VariableDeclaration" := by
      intro same
      have declares := expression.not_declaration
      rw [same] at declares
      revert declares
      decide
    rw [if_neg other] at writes
    cases writes with
    | clause inner =>
        have quiet := tree.quiet_child names (by rw [kind]; decide) held expression roles
          (Layout.writes_visit_iff.mp (Layout.writes_wanting_iff.mp inner).2)
        rwa [Text.withoutTerminator_eq quiet.isTerminated_eq_false]
  · rw [if_pos declaration.kind] at writes
    obtain ⟨list, found, inner⟩ := Layout.writes_needed_iff.mp writes
    cases listed : list.items with
    | error crash =>
        simp only [listed] at inner
        exact absurd inner Layout.not_writes_stop
    | ok items =>
        simp only [listed] at inner
        refine Text.IsQuiet.separated (fun layout among text one => ?_) inner
        obtain ⟨slot, listedSlot, rfl⟩ := List.mem_map.mp among
        obtain ⟨entry, listedEntry, rfl⟩ := List.mem_map.mp listedSlot
        have inside : entry.1 ∈ items :=
          List.mem_of_getElem? (List.mem_zipIdx_iff_getElem?.mp listedEntry)
        have declared : (start.field "declarations").items = .ok items := by
          rw [Node.field_of_field? found, listed]
        obtain ⟨declarator, -, cases⟩ :=
          declaration.declarator_cases names roles (tree.child held) declared inside
        cases one with
        | clause rendered =>
            have either :=
              cases _ (Layout.writes_visit_iff.mp (Layout.writes_wanting_iff.mp rendered).2)
            exact Text.withoutTerminator_isQuiet (either.imp_right And.right)

/-- A clause of a counting loop that may be empty is quiet. -/
theorem optionalClause_isQuiet {loop : Node} (kind : loop.kind = "ForStatement")
    (readable : loop.Readable) (tree : loop.IsPlainTree (Text.Avoids Text.delimiters)) {field : String}
    (read : Part.optionalChild field ∈ Construct.forStatement.parts)
    (expressions : ∀ child ∈ Node.nodesOf (loop.field field), child.IsExpression)
    {text : String} (writes : (Layout.optionalChild loop field "" "" "").Writes (render options) text) :
    Text.IsQuiet text := by
  have known : Construct.ofKind? loop.kind = some .forStatement := by
    rw [kind]
    rfl
  have fulfils := (Node.readable_iff_parts known).mp readable _ read
    ⟨field, .node, .rendered⟩ (List.mem_singleton_self _)
  cases given : loop.field? field with
  | none =>
      simp only [Layout.optionalChild, Layout.optional, given, Layout.writes_word_iff] at writes
      rw [writes]
      exact .of_avoids (by decide)
  | some value =>
      simp only [Layout.optionalChild, Layout.optional, given, Layout.writes_joined_cons_iff,
        Layout.writes_joined_nil_iff, Layout.writes_word_iff, Layout.writes_visit_iff] at writes
      obtain ⟨_, _, rfl, ⟨inner, _, within, ⟨_, _, rfl, rfl, rfl⟩, rfl⟩, rfl⟩ := writes
      obtain ⟨child, rfl, roles⟩ := fulfils.node_of_field? (.inl rfl) given
      have held := Node.field_of_field? given
      have expression : child.IsExpression := by
        refine expressions child ?_
        rw [held]
        exact List.mem_singleton_self _
      simpa using tree.quiet_child names (by rw [kind]; decide) held expression roles within

end

structure Node.IsCountingLoop (loop : Node) : Prop where
  kind : loop.kind = "ForStatement"
  readable : loop.Readable
  plain : loop.IsPlainTree (Text.Avoids Text.delimiters)
  init : ∀ start ∈ Node.nodesOf (loop.field "init"), start.IsExpression ∨ start.IsVariables
  clauses : ∀ field ∈ ["test", "update"], ∀ clause ∈ Node.nodesOf (loop.field field),
    clause.IsExpression
  body : loop.has "body" = true

def countingHeader (init test update : String) : String :=
  "for (" ++ init ++ "; " ++ test ++ "; " ++ update ++ ")"

theorem ends_countingHeader {init test update : String} (first : Text.IsQuiet init)
    (second : Text.IsQuiet test) (third : Text.IsQuiet update) :
    Text.ends (countingHeader init test update) = 2 := by
  simp [countingHeader, Text.ends, endsFrom, depthStep, first.ends, first.depth, second.ends,
    second.depth, third.ends, third.depth]

/-- Exactly two clauses end in the header of a counting loop, before the block of its body. -/
theorem Node.IsCountingLoop.header (names : options.IsPlain (Text.Avoids Text.delimiters)) {loop : Node}
    (counting : loop.IsCountingLoop) (usable : position.IsUsable) :
    ∃ init test update body, (render options (.node loop) position).outcome =
        .ok (countingHeader init test update ++ (" \x7b\n" ++ body ++ "\x7d\n")) ∧
      (render options (loop.field "body") (.within loop)).outcome = .ok body ∧
      Text.ends (countingHeader init test update) = 2 := by
  have known : Construct.ofKind? loop.kind = some .forStatement := by
    rw [counting.kind]
    rfl
  have parts : ∀ part ∈ Construct.forStatement.parts,
      part.IsMet options loop position := by
    simp only [Construct.parts, Part.IsMet, List.forall_mem_cons, List.not_mem_nil, false_implies,
      implies_true, and_true]
    refine ⟨fun start held same => ?_, trivial, trivial, counting.body⟩
    have inside : start ∈ Node.nodesOf (loop.field "init") := by
      rw [held]
      exact List.mem_singleton_self _
    rcases counting.init start inside with expression | declaration
    · exact absurd same expression.kind_ne
    · exact declaration.declares
  obtain ⟨written, writes⟩ := Node.exists_writes known (by decide) counting.readable usable parts
  rw [render_of_construct_writes known writes]
  simp only [Construct.layout, Layout.writes_joined_cons_iff, Layout.writes_joined_nil_iff,
    Layout.writes_word_iff, Layout.writes_child_iff] at writes
  obtain ⟨_, _, rfl, ⟨init, _, first, ⟨_, _, rfl, ⟨test, _, second, ⟨_, _, rfl, ⟨update, _, third,
    ⟨_, _, rfl, ⟨_, _, rfl, ⟨body, _, ⟨value, found, inside⟩, ⟨_, _, rfl, rfl, rfl⟩, rfl⟩, rfl⟩,
    rfl⟩, rfl⟩, rfl⟩, rfl⟩, rfl⟩, rfl⟩, rfl⟩ := writes
  refine ⟨init, test, update, body, congrArg _ ?_, ?_, ends_countingHeader ?_ ?_ ?_⟩
  · simp [Fragment.terminated, Construct.owesTerminator, countingHeader, String.append_assoc]
  · rwa [Node.field_of_field? found]
  · cases given : loop.field? "init" with
    | none =>
        simp only [Layout.optional, given, Layout.writes_word_iff] at first
        rw [first]
        exact .of_avoids (by decide)
    | some start =>
        simp only [Layout.optional, given] at first
        have fulfils := (Node.readable_iff_parts known).mp counting.readable .loopStart (by decide)
          ⟨"init", .node, .rendered⟩ (List.mem_singleton_self _)
        obtain ⟨start, rfl, -⟩ := fulfils.node_of_field? (.inl rfl) given
        have held := Node.field_of_field? given
        refine loopInit_isQuiet names counting.kind counting.readable counting.plain held
          (counting.init start ?_) first
        rw [held]
        exact List.mem_singleton_self _
  · exact optionalClause_isQuiet names counting.kind counting.readable counting.plain (by decide)
      (counting.clauses "test" (by decide)) second
  · exact optionalClause_isQuiet names counting.kind counting.readable counting.plain (by decide)
      (counting.clauses "update" (by decide)) third

/-! ## Loops over keys -/

structure Node.IsLastInitialised (node : Node) : Prop where
  declaration : node.IsVariables
  before : ∀ items, (node.field "declarations").items = .ok items →
    ∀ declarator, .node declarator ∈ items.dropLast → declarator.has "init" = false

/-- Only the last of some quiet texts in a row may have a terminator. -/
theorem Text.IsQuiet.joined_cases {render : Renderer} {layouts : List Layout}
    (before : ∀ layout ∈ layouts.dropLast, ∀ text, layout.Writes render text → IsQuiet text)
    (all : ∀ layout ∈ layouts, ∀ text, layout.Writes render text →
      IsQuiet text ∨ ∃ written, IsQuiet written ∧ text = written ++ terminator)
    {text : String} (writes : (Layout.joined layouts).Writes render text) :
    IsQuiet text ∨ ∃ written, IsQuiet written ∧ text = written ++ terminator := by
  induction layouts generalizing text with
  | nil =>
      rw [Layout.writes_joined_nil_iff.mp writes]
      exact .inl (.of_avoids (by decide))
  | cons first rest ih =>
      obtain ⟨head, tail⟩ := List.forall_mem_cons.mp all
      obtain ⟨one, others, start, later, rfl⟩ := Layout.writes_joined_cons_iff.mp writes
      cases rest with
      | nil =>
          rw [Layout.writes_joined_nil_iff.mp later, String.append_empty]
          exact head one start
      | cons second rest =>
          rw [List.dropLast_cons_cons] at before
          obtain ⟨quiet, following⟩ := List.forall_mem_cons.mp before
          rcases ih following tail later with silent | ⟨written, silent, rfl⟩
          · exact .inl ((quiet one start).append silent)
          · exact .inr ⟨one ++ written, (quiet one start).append silent, String.append_assoc.symm⟩

/-- A declaration without initial values before its last variable has one terminator at
most, at its end. -/
theorem Node.IsLastInitialised.cases (names : options.IsPlain (Text.Avoids Text.delimiters))
    (initialised : node.IsLastInitialised) (readable : node.Readable)
    (tree : node.IsPlainTree (Text.Avoids Text.delimiters)) {text : String}
    (rendered : (render options (.node node) position).outcome = .ok text) :
    Text.IsQuiet text ∨ ∃ written, Text.IsQuiet written ∧ text = written ++ terminator := by
  have known : Construct.ofKind? node.kind = some .variableDeclaration := by
    rw [initialised.declaration.kind]
    rfl
  rcases render_cases rendered with rfl | ⟨written, writes, rfl⟩
  · exact .inl (.of_avoids (by decide))
  rw [node.layout_eq known] at writes
  rw [node.owesTerminator_eq known]
  obtain ⟨list, found, writesList⟩ := Layout.writes_needed_iff.mp writes
  have inner := (Layout.writes_wanting_iff.mp writesList).2
  cases listed : list.items with
  | error crash =>
      simp only [listed, Layout.shaped] at inner
      exact absurd inner Layout.not_writes_stop
  | ok items =>
      simp only [listed, Layout.shaped] at inner
      have declared : (node.field "declarations").items = .ok items := by
        rw [Node.field_of_field? found, listed]
      refine Text.IsQuiet.joined_cases (fun layout among text one => ?_)
        (fun layout among text one => ?_) inner
      · rw [Layout.slots, ← List.map_dropLast] at among
        obtain ⟨entry, listedEntry, rfl⟩ := List.mem_map.mp among
        have early : entry.1 ∈ items.dropLast := by
          have places : items.zipIdx.dropLast.map Prod.fst = items.dropLast := by
            rw [List.map_dropLast, List.zipIdx_map_fst]
          rw [← places]
          exact List.mem_map_of_mem listedEntry
        obtain ⟨declarator, same, cases⟩ := initialised.declaration.declarator_cases names readable
          tree declared ((List.dropLast_subset items) early)
        rcases cases _ (Layout.writes_visit_iff.mp one) with quiet | ⟨has, -⟩
        · exact quiet
        · rw [same] at early
          rw [initialised.before items declared declarator early] at has
          cases has
      · obtain ⟨entry, listedEntry, rfl⟩ := List.mem_map.mp among
        have inside : entry.1 ∈ items :=
          List.mem_of_getElem? (List.mem_zipIdx_iff_getElem?.mp listedEntry)
        obtain ⟨declarator, -, cases⟩ :=
          initialised.declaration.declarator_cases names readable tree declared inside
        exact (cases _ (Layout.writes_visit_iff.mp one)).imp_right And.right

/-- A loop over the keys of an expression, with a body. Its left side is an expression, or
a declaration without initial values before its last variable. -/
structure Node.IsKeyLoop (loop : Node) : Prop where
  kind : loop.kind = "ForInStatement"
  readable : loop.Readable
  plain : loop.IsPlainTree (Text.Avoids Text.delimiters)
  right : ∃ object, loop.field "right" = .node object ∧ object.IsExpression
  left : ∃ start, loop.field "left" = .node start ∧
    (start.IsExpression ∨ start.IsLastInitialised)
  body : loop.has "body" = true

def keyHeader (right left : String) : String :=
  "foreach (" ++ right ++ " as " ++ left ++ " => " ++ Naming.discardedValue ++ ")"

theorem ends_keyHeader {right left : String} (first : Text.IsQuiet right)
    (second : Text.IsQuiet left) : Text.ends (keyHeader right left) = 0 := by
  simp [keyHeader, Text.ends, endsFrom, depthStep, first.ends, first.depth, second.ends,
    second.depth, Naming.discardedValue]

/-- Nothing ends in the header of a loop over keys, before the block of its body. -/
theorem Node.IsKeyLoop.header (names : options.IsPlain (Text.Avoids Text.delimiters)) {loop : Node}
    (keys : loop.IsKeyLoop) (usable : position.IsUsable) :
    ∃ right left body, (render options (.node loop) position).outcome =
        .ok (keyHeader right left ++ (" \x7b\n" ++ body ++ "\x7d\n")) ∧
      (render options (loop.field "body") (.within loop)).outcome = .ok body ∧
      Text.ends (keyHeader right left) = 0 := by
  have known : Construct.ofKind? loop.kind = some .forInStatement := by
    rw [keys.kind]
    rfl
  obtain ⟨object, heldObject, expression⟩ := keys.right
  obtain ⟨start, held, clause⟩ := keys.left
  have parts : ∀ part ∈ Construct.forInStatement.parts,
      part.IsMet options loop position := by
    simp [Construct.parts, Part.IsMet, Node.has_of_node heldObject, Node.has_of_node held, keys.body]
  obtain ⟨written, writes⟩ := Node.exists_writes known (by decide) keys.readable usable parts
  rw [render_of_construct_writes known writes]
  simp only [Construct.layout, Layout.writes_joined_cons_iff, Layout.writes_joined_nil_iff,
    Layout.writes_word_iff] at writes
  obtain ⟨_, _, rfl, ⟨right, _, first, ⟨_, _, rfl, ⟨left, _, second, ⟨_, _, rfl, ⟨_, _, rfl,
    ⟨body, _, third, ⟨_, _, rfl, rfl, rfl⟩, rfl⟩, rfl⟩, rfl⟩, rfl⟩, rfl⟩, rfl⟩, rfl⟩ := writes
  have other : loop.kind ≠ "ExpressionStatement" := by
    rw [keys.kind]
    decide
  have readable {field : String} {child : Node} (among : field ∈ ["right", "left"])
      (holds : loop.field field = .node child) : child.Readable := by
    have table : ∀ field ∈ ["right", "left"], ∃ part ∈ Construct.forInStatement.parts,
        ⟨field, .node, .rendered⟩ ∈ part.readings := by
      decide
    obtain ⟨part, listed, read⟩ := table field among
    have fulfils := (Node.readable_iff_parts known).mp keys.readable _ listed _ read
    obtain ⟨_, ⟨⟩, roles⟩ := fulfils.node_of_field? (.inl rfl) (Node.field?_node holds)
    exact roles
  have quietRight : Text.IsQuiet right := by
    obtain ⟨value, found, rendered⟩ := Layout.writes_child_iff.mp first
    cases (Node.field?_node heldObject).symm.trans found
    exact keys.plain.quiet_child names other heldObject expression
      (readable (by decide) heldObject) rendered
  have quietLeft : Text.IsQuiet left := by
    cases second with
    | clause inner =>
        obtain ⟨value, found, -, rendered⟩ := Layout.writes_text_iff.mp inner
        cases (Node.field?_node held).symm.trans found
        refine Text.withoutTerminator_isQuiet ?_
        rcases clause with expression | initialised
        · exact .inl (keys.plain.quiet_child names other held expression
            (readable (by decide) held) rendered)
        · exact initialised.cases names (readable (by decide) held) (keys.plain.child held) rendered
  obtain ⟨value, found, inside⟩ := Layout.writes_child_iff.mp third
  refine ⟨right, left, body, congrArg _ ?_, ?_, ends_keyHeader quietRight quietLeft⟩
  · simp [Fragment.terminated, Construct.owesTerminator, keyHeader, String.append_assoc]
  · rwa [Node.field_of_field? found]

end PhpRendering
