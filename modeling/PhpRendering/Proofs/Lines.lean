import Mathlib.Data.List.Forall2
import PhpRendering.Proofs.LastLetter

/-!
# Lines of statements

The texts of the statements of a list stand one after another. A statement that ends its
line, or has no text, leaves a line of its own to the next one. All statements do so but
the declarations without an initial value at the end, which owe no terminator, and those
whose texts end in such a declaration.
-/

namespace PhpRendering

/-- What a text leaves of the line on which it stands. -/
inductive Line where
  | untouched
  | ended
  /-- whatever follows stands on the same line -/
  | hanging
deriving DecidableEq, Repr

namespace Line

def followedBy (first : Line) : Line → Line
  | .untouched => first
  | later => later

def all : List Line → Line
  | [] => .untouched
  | first :: rest => first.followedBy (all rest)

/-- What the nodes that a field leads to leave of the line, in a row. -/
def across (lines : Node → Line) (value : Value) : Line :=
  all ((Node.nodesOf value).map lines)

def Fits : Line → String → Prop
  | .untouched, text => text = ""
  | .ended, text => Text.EndsLine text
  | .hanging, text => text ≠ "" ∧ ¬ Text.EndsLine text

/-- A text that is empty or ends its line leaves no line hanging. -/
theorem Fits.closed_iff {line : Line} {text : String} (fits : line.Fits text) :
    text = "" ∨ Text.EndsLine text ↔ line ≠ .hanging := by
  cases line with
  | untouched => exact iff_of_true (.inl fits) Line.noConfusion
  | ended => exact iff_of_true (.inr fits) Line.noConfusion
  | hanging => exact iff_of_false (not_or.mpr fits) fun different => different rfl

theorem Fits.append {first second : Line} {before after : String} (one : first.Fits before)
    (other : second.Fits after) : (first.followedBy second).Fits (before ++ after) := by
  cases second with
  | untouched =>
      cases other
      rwa [String.append_empty]
  | ended => exact Text.EndsLine.append other before
  | hanging =>
      obtain ⟨something, open_⟩ := other
      have last := Text.getLast?_append_of_ne_empty something before
      refine ⟨fun nothing => something ?_, fun ends => open_ (last.symm.trans ends)⟩
      rw [nothing] at last
      exact String.toList_inj.mp (List.getLast?_eq_none_iff.mp last.symm)

/-! ## Rows of nodes -/

theorem across_cons_node (lines : Node → Line) (child : Node) (rest : List Value) :
    across lines (.list (.node child :: rest)) =
      (lines child).followedBy (across lines (.list rest)) := rfl

theorem across_cons_hole (lines : Node → Line) (rest : List Value) :
    across lines (.list (.null :: rest)) = across lines (.list rest) := rfl

inductive IsSlot (stands : Position → Prop) : Value → Layout → Prop where
  | hole : IsSlot stands .null .empty
  | node {source : Source} {child : Node} {place : Position} (there : stands place) :
      IsSlot stands (.node child) (.visit source (.node child) place)

/-- Nodes in a row leave what is left of the line after their texts. -/
theorem Fits.joined {options : Options} {lines : Node → Line} {stands : Position → Prop}
    {items : List Value} {layouts : List Layout}
    (slots : List.Forall₂ (IsSlot stands) items layouts)
    (each : ∀ child ∈ Node.nodesOf (.list items), ∀ place, stands place → ∀ slot,
      (render options (.node child) place).outcome = .ok slot → (lines child).Fits slot)
    {text : String} (writes : (Layout.joined layouts).Writes (render options) text) :
    (across lines (.list items)).Fits text := by
  induction slots generalizing text with
  | nil => exact Layout.writes_joined_nil_iff.mp writes
  | @cons item layout items layouts slot slots ih =>
      obtain ⟨before, after, one, others, rfl⟩ := Layout.writes_joined_cons_iff.mp writes
      cases slot with
      | hole =>
          rw [Layout.writes_word_iff.mp one, String.empty_append, across_cons_hole]
          exact ih each others
      | @node source child place there =>
          obtain ⟨head, tail⟩ := List.forall_mem_cons.mp each
          rw [across_cons_node]
          exact (head place there before (Layout.writes_visit_iff.mp one)).append (ih tail others)

end Line

/-- Slots in a row, one for each item of a list with its index. -/
theorem forall₂_isSlot {stands : Position → Prop} {items : List Value}
    {layout : Value × Nat → Layout}
    (slots : ∀ entry ∈ items.zipIdx, Line.IsSlot stands entry.1 (layout entry)) :
    List.Forall₂ (Line.IsSlot stands) items (items.zipIdx.map layout) := by
  refine List.forall₂_iff_get.mpr ⟨by simp, fun index inside _ => ?_⟩
  have listed : (items[index], index) ∈ items.zipIdx := by
    rw [List.mem_zipIdx_iff_getElem?]
    exact List.getElem?_eq_getElem inside
  simpa using slots _ listed

/-! ## Statements -/

/-- A node of a construct that has all that its rule requires, wherever it stands. -/
structure Node.IsWellFormed (options : Options) (construct : Construct) (node : Node) : Prop where
  known : Construct.ofKind? node.kind = some construct
  met : ∀ position, ∀ part ∈ construct.parts, part.IsMet options node position

/-- A declarator with an initial value ends its line; without one it leaves its name. -/
inductive Node.IsDeclarator (options : Options) : Node → Line → Prop where
  | initialised {node value : Node} (formed : node.IsWellFormed options .variableDeclarator)
      (held : node.field "init" = .node value) (expression : value.IsExpression) :
      node.IsDeclarator options .ended
  | bare {node name : Node} (formed : node.IsWellFormed options .variableDeclarator)
      (nothing : node.has "init" = false) (held : node.field "id" = .node name)
      (kind : name.kind = "Identifier") (named : name.name ≠ "")
      (ends : ¬ Text.EndsLine name.name) : node.IsDeclarator options .hanging

/-- An imported binding; the kinds without a rule have no text. -/
inductive Node.IsBinding : Node → Line → Prop where
  | specifier {node : Node} (known : Construct.ofKind? node.kind = some .importSpecifier)
      (bound : node.has "id" = true ∨ node.has "imported" = true) : node.IsBinding .ended
  | unsupported {node : Node} (unknown : Construct.ofKind? node.kind = none) :
      node.IsBinding .untouched

/-- A well-formed statement, and what it leaves of its line. Statements in a row leave what
the last one leaves that has a text. -/
inductive Node.IsStatement (options : Options) : Node → Line → Prop where
  | unsupported {node : Node} (unknown : Construct.ofKind? node.kind = none) :
      node.IsStatement options .untouched
  | block {node : Node} {construct : Construct} (formed : node.IsWellFormed options construct)
      (closes : construct.endsInBlock = true) : node.IsStatement options .ended
  | expression {node value : Node} (formed : node.IsWellFormed options .expressionStatement)
      (held : node.field "expression" = .node value) (expression : value.IsExpression) :
      node.IsStatement options .ended
  | returns {node : Node} (formed : node.IsWellFormed options .returnStatement)
      (expression : ∀ value, node.field "argument" = .node value → value.IsExpression) :
      node.IsStatement options .ended
  | breaks {node : Node} (formed : node.IsWellFormed options .breakStatement) :
      node.IsStatement options .ended
  | declaration {node : Node} (lines : Node → Line)
      (formed : node.IsWellFormed options .variableDeclaration)
      (each : ∀ child ∈ Node.nodesOf (node.field "declarations"),
        child.IsDeclarator options (lines child)) :
      node.IsStatement options (.across lines (node.field "declarations"))
  | list {node : Node} (lines : Node → Line) (formed : node.IsWellFormed options .statementList)
      (each : ∀ child ∈ Node.nodesOf (node.field "body"), child.IsStatement options (lines child)) :
      node.IsStatement options (.across lines (node.field "body"))
  | module {node : Node} (lines : Node → Line)
      (formed : node.IsWellFormed options .moduleDeclaration)
      (each : ∀ child ∈ Node.nodesOf (node.field "body"), child.IsStatement options (lines child)) :
      node.IsStatement options (Line.ended.followedBy (.across lines (node.field "body")))
  | exportedDeclaration {node value : Node} {line : Line}
      (formed : node.IsWellFormed options .exportDeclaration)
      (held : node.field "declaration" = .node value)
      (declares : Rule.isDeclarationKind value.kind = true)
      (statement : value.IsStatement options line) : node.IsStatement options line
  | exportedExpression {node value : Node} (formed : node.IsWellFormed options .exportDeclaration)
      (held : node.field "declaration" = .node value) (expression : value.IsExpression) :
      node.IsStatement options .ended
  | exportedNames {node : Node} (lines : Node → Line)
      (formed : node.IsWellFormed options .exportDeclaration)
      (nothing : node.has "declaration" = false)
      (each : ∀ child ∈ Node.nodesOf (node.field "specifiers"),
        child.IsStatement options (lines child)) :
      node.IsStatement options (.across lines (node.field "specifiers"))
  | imported {node : Node} (lines : Node → Line)
      (formed : node.IsWellFormed options .importDeclaration) (source : node.has "source" = true)
      (each : ∀ child ∈ Node.nodesOf (node.field "specifiers"), child.IsBinding (lines child)) :
      node.IsStatement options (.across lines (node.field "specifiers"))

/-! ## What statements leave of their lines -/

section

variable {options : Options} {node : Node} {position : Position} {text : String}

/-- The text of a well-formed node is what its layout writes. -/
theorem Node.IsWellFormed.writes {construct : Construct}
    (formed : node.IsWellFormed options construct)
    (direct : ∀ part ∈ construct.parts, part.isDirect = true) (readable : node.Readable)
    (usable : position.IsUsable)
    (rendered : (render options (.node node) position).outcome = .ok text) :
    ∃ written, (construct.layout options node position).Writes (render options) written ∧
      text = Fragment.terminated ⟨written, construct.owesTerminator options node position⟩ := by
  obtain ⟨written, writes⟩ :=
    Node.exists_writes formed.known direct readable usable (formed.met position)
  have whole := render_of_construct_writes formed.known writes
  exact ⟨written, writes, Except.ok.inj (rendered.symm.trans whole)⟩

theorem Node.nodesOf_field {field : String} {child : Node}
    (held : node.field field = .node child) : child ∈ Node.nodesOf (node.field field) := by
  rw [held]
  exact List.mem_singleton_self _

section

variable {construct : Construct} (formed : node.IsWellFormed options construct)
  (readable : node.Readable) (tree : node.IsPlainTree Text.IsUnended) {part : Part}
  (listed : part ∈ construct.parts) {field : String} {shape : Shape}
  (read : ⟨field, shape, .rendered⟩ ∈ part.readings)
include formed readable tree listed read

/-- The nodes that are rendered for a part are readable and plain as their parent is. -/
theorem Node.IsWellFormed.child :
    ∀ child ∈ Node.nodesOf (node.field field),
      child.Readable ∧ child.IsPlainTree Text.IsUnended :=
  fun child inside =>
    ⟨((Node.readable_iff_parts formed.known).mp readable part listed _ read).2 child inside,
      tree.inner field inside⟩

/-- An operand of a statement does not end in a semicolon. -/
theorem Node.IsWellFormed.operand_isUnended (unended : options.IsUnended) {value : Node}
    (held : node.field field = .node value) (expression : value.IsExpression)
    (rendered : (render options (.node value) (.within node)).outcome = .ok text) :
    Text.IsUnended text := by
  obtain ⟨below, plain⟩ :=
    formed.child readable tree listed read value (Node.nodesOf_field held)
  exact render_isUnended unended expression.isPhrase below plain (Position.within_isUsable node)
    rendered

variable {lines : Node → Line}

/-- A row of statements, with the texts of its nodes in its slots. -/
theorem Node.IsWellFormed.statements_fit (several : shape = .holedNodes ∨ shape = .nodeOrNodes)
    (each : ∀ child ∈ Node.nodesOf (node.field field), child.Readable →
      child.IsPlainTree Text.IsUnended → ∀ place : Position, place.IsUsable → ∀ slot,
      (render options (.node child) place).outcome = .ok slot → (lines child).Fits slot)
    (writes : (Layout.statements node field (node.field field)).Writes (render options) text) :
    (Line.across lines (node.field field)).Fits text := by
  have fulfils := (Node.readable_iff_parts formed.known).mp readable part listed _ read
  have below := formed.child readable tree listed read
  obtain ⟨items, held, inner⟩ := Layout.writes_shaped_iff.mp (Layout.writes_wanting_iff.mp writes).2
  obtain ⟨same, nodes⟩ := fulfils.1.list (.inr several) held
  simp only at same
  rw [same] at each below ⊢
  refine Line.Fits.joined (forall₂_isSlot fun entry inside => ?_)
    (fun child among => each child among (below child among).1 (below child among).2) inner
  have usable := Position.within_isUsable node
  cases hole : entry.1.isNull with
  | true =>
      rw [if_pos rfl, Value.eq_null_of_isNull hole]
      exact .hole
  | false =>
      obtain ⟨child, found⟩ := nodes entry.1 (List.fst_mem_of_mem_zipIdx inside) (.inr hole)
      rw [if_neg Bool.false_ne_true, found]
      exact .node ⟨usable.parent, usable.source⟩

/-- A row of nodes that all stand at the same position. -/
theorem Node.IsWellFormed.slots_fit (several : shape = .nodes)
    (each : ∀ child ∈ Node.nodesOf (node.field field), child.Readable →
      child.IsPlainTree Text.IsUnended → ∀ slot,
      (render options (.node child) (.within node)).outcome = .ok slot → (lines child).Fits slot)
    {items : List Value} {source : Nat → Source} (held : (node.field field).items = .ok items)
    (writes : (Layout.joined (Layout.slots source (.within node) items)).Writes (render options)
      text) : (Line.across lines (node.field field)).Fits text := by
  have fulfils := (Node.readable_iff_parts formed.known).mp readable part listed _ read
  have below := formed.child readable tree listed read
  obtain ⟨same, nodes⟩ := fulfils.1.list (.inl several) held
  simp only at same
  rw [same] at each below ⊢
  have slots : List.Forall₂ (Line.IsSlot (· = .within node)) items
      (Layout.slots source (.within node) items) := by
    refine forall₂_isSlot fun entry inside => ?_
    obtain ⟨child, found⟩ := nodes entry.1 (List.fst_mem_of_mem_zipIdx inside) (.inl several)
    rw [found]
    exact .node rfl
  refine Line.Fits.joined slots (fun child among place there slot one => ?_) writes
  obtain ⟨readable, plain⟩ := below child among
  exact each child among readable plain slot (there ▸ one)

end

/-- A declarator leaves its line as it should: its name does not end it. -/
theorem Node.IsDeclarator.fits (unended : options.IsUnended) {line : Line}
    (declarator : node.IsDeclarator options line) (readable : node.Readable)
    (tree : node.IsPlainTree Text.IsUnended) (usable : position.IsUsable)
    (rendered : (render options (.node node) position).outcome = .ok text) : line.Fits text := by
  cases declarator with
  | @initialised value formed held expression =>
      obtain ⟨written, writes, rfl⟩ := formed.writes (by decide) readable usable rendered
      simp only [Construct.layout, Layout.optionalChild, Layout.optional, Node.field?_node held,
        Layout.writes_next_iff, Layout.writes_joined_cons_iff, Layout.writes_joined_nil_iff,
        Layout.writes_word_iff, Layout.writes_visit_iff] at writes
      obtain ⟨target, _, -, ⟨_, _, rfl, ⟨inner, _, within, ⟨_, _, rfl, rfl, rfl⟩, rfl⟩, rfl⟩, rfl⟩ :=
        writes
      have owes : Construct.variableDeclarator.owesTerminator options node position = true := by
        simp [Construct.owesTerminator, Node.has, Node.field?_node held]
      have part : Part.optionalChild "init" ∈ Construct.variableDeclarator.parts := by decide
      have initial := formed.operand_isUnended readable tree part (List.mem_singleton_self _) unended
        held expression within
      have assigned : Text.IsUnended (" = " ++ inner) := .append (by decide) initial
      rw [owes]
      refine (Text.IsUnended.append_right (fun nothing => ?_) ?_ target).endsLine_statement
      · exact absurd (String.append_eq_empty_iff.mp nothing).1 (by decide)
      · simpa only [String.append_empty] using assigned
  | @bare name formed nothing held kind named ends =>
      obtain ⟨written, writes, rfl⟩ := formed.writes (by decide) readable usable rendered
      have absent : node.field? "init" = none := by
        simpa [Node.has] using nothing
      simp only [Construct.layout, Layout.optionalChild, Layout.optional, absent,
        Layout.writes_next_iff, Layout.writes_word_iff, Layout.writes_child_iff,
        Node.field?_node held] at writes
      obtain ⟨target, _, ⟨_, ⟨⟩, within⟩, rfl, rfl⟩ := writes
      cases within.symm.trans (render_variable options kind named node)
      have owes : Construct.variableDeclarator.owesTerminator options node position = false := nothing
      rw [owes, String.append_empty]
      refine ⟨fun empty => ?_, fun line => ends ?_⟩
      · exact absurd (String.append_eq_empty_iff.mp empty).1 (by decide)
      · exact (Text.getLast?_append_of_ne_empty named "$").symm.trans line

theorem Node.render_unsupported (unknown : Construct.ofKind? node.kind = none)
    (rendered : (render options (.node node) position).outcome = .ok text) : text = "" := by
  rcases render_cases rendered with rfl | ⟨written, writes, rfl⟩
  · rfl
  · unfold Node.layout at writes
    unfold Node.owesTerminator
    rw [unknown] at writes ⊢
    cases writes
    rfl

/-- The use statement of a binding ends its line. -/
theorem Node.IsBinding.fits {line : Line} (binding : node.IsBinding line) (readable : node.Readable)
    (usable : position.IsUsable) (source : ∃ moduleName, position.importSource = .named moduleName)
    (rendered : (render options (.node node) position).outcome = .ok text) : line.Fits text := by
  cases binding with
  | specifier known bound =>
      have met : ∀ part ∈ Construct.importSpecifier.parts, part.IsMet options node position :=
        List.forall_mem_cons.mpr ⟨source, List.forall_mem_singleton.mpr bound⟩
      obtain ⟨written, writes⟩ := Node.exists_writes known (by decide) readable usable met
      cases rendered.symm.trans (render_of_construct_writes known writes)
      obtain ⟨before, _, -, use, rfl⟩ := Layout.writes_next_iff.mp writes
      have ends (value : Value) : (Layout.useStatement node position value).EndsLine (render options) :=
        fun text one => by
          rw [Layout.writes_word_iff.mp one]
          exact Text.EndsLine.append (by decide) _
      refine Text.EndsLine.append ?_ before
      unfold Layout.optional at use
      split at use
      · exact ends _ _ use
      · obtain ⟨value, -, one⟩ := Layout.writes_needed_iff.mp use
        exact ends value _ one
  | unsupported unknown => exact Node.render_unsupported unknown rendered

/-- A well-formed statement leaves its line as it should. -/
theorem Node.IsStatement.fits (unended : options.IsUnended) {line : Line}
    (statement : node.IsStatement options line) (readable : node.Readable)
    (tree : node.IsPlainTree Text.IsUnended) (usable : position.IsUsable)
    (rendered : (render options (.node node) position).outcome = .ok text) : line.Fits text := by
  induction statement generalizing position text with
  | unsupported unknown => exact Node.render_unsupported unknown rendered
  | @block node construct formed closes =>
      have direct : ∀ part ∈ construct.parts, part.isDirect = true := by
        cases construct <;> first | decide | cases closes
      obtain ⟨written, writes, rfl⟩ := formed.writes direct readable usable rendered
      have owes : construct.owesTerminator options node position = false := by
        cases construct <;> first | rfl | cases closes
      rw [owes]
      exact construct.layout_endsLine closes options node position _ written writes
  | @expression node value formed held expression =>
      obtain ⟨written, writes, rfl⟩ := formed.writes (by decide) readable usable rendered
      obtain ⟨_, found, -, within⟩ := Layout.writes_text_iff.mp writes
      cases (Node.field?_node held).symm.trans found
      have part : Part.text "expression" ∈ Construct.expressionStatement.parts := by decide
      exact (formed.operand_isUnended readable tree part (List.mem_singleton_self _) unended held
        expression within).endsLine_statement
  | @returns node formed expression =>
      obtain ⟨written, writes, rfl⟩ := formed.writes (by decide) readable usable rendered
      refine Text.IsUnended.endsLine_statement ?_
      cases found : node.field? "argument" with
      | none =>
          simp only [Construct.layout, Layout.optionalText, Layout.optional, found,
            Layout.writes_word_iff] at writes
          rw [writes]
          decide
      | some argument =>
          have part : Part.optionalText "argument" ∈ Construct.returnStatement.parts := by decide
          have fulfils := (Node.readable_iff_parts formed.known).mp readable _ part _
            (List.mem_singleton_self _)
          obtain ⟨value, rfl, -⟩ := fulfils.node_of_field? (.inl rfl) found
          have held := Node.field_of_field? found
          simp only [Construct.layout, Layout.optionalText, Layout.optional, found,
            Layout.writes_next_iff, Layout.writes_word_iff, Layout.writes_wanting_iff,
            Layout.writes_visit_iff] at writes
          obtain ⟨_, inner, rfl, ⟨-, within⟩, rfl⟩ := writes
          have operand := formed.operand_isUnended readable tree part (List.mem_singleton_self _)
            unended held (expression value held) within
          exact .append (by decide) operand
  | @breaks node formed =>
      obtain ⟨written, writes, rfl⟩ := formed.writes (by decide) readable usable rendered
      cases writes
      exact Text.IsUnended.endsLine_statement (by decide)
  | @declaration node lines formed each =>
      obtain ⟨written, writes, rfl⟩ := formed.writes (by decide) readable usable rendered
      obtain ⟨value, found, inner⟩ := Layout.writes_needed_iff.mp writes
      obtain ⟨items, listed, row⟩ :=
        Layout.writes_shaped_iff.mp (Layout.writes_wanting_iff.mp inner).2
      rw [← Node.field_of_field? found] at listed
      have part : Part.children "declarations" ∈ Construct.variableDeclaration.parts := by decide
      exact formed.slots_fit readable tree part (List.mem_singleton_self _) rfl
        (fun child inside below plain slot one =>
          (each child inside).fits unended below plain (Position.within_isUsable node) one)
        listed row
  | @list node lines formed each ih =>
      obtain ⟨written, writes, rfl⟩ := formed.writes (by decide) readable usable rendered
      obtain ⟨value, found, row⟩ := Layout.writes_needed_iff.mp writes
      rw [← Node.field_of_field? found] at row
      have part : Part.statements "body" ∈ Construct.statementList.parts := by decide
      exact formed.statements_fit readable tree part (List.mem_singleton_self _) (.inl rfl)
        (fun child inside below plain place fine slot one => ih child inside below plain fine one)
        row
  | @module node lines formed each ih =>
      obtain ⟨written, writes, rfl⟩ := formed.writes (by decide) readable usable rendered
      simp only [Construct.layout, Layout.writes_joined_cons_iff, Layout.writes_joined_nil_iff,
        Layout.writes_present_iff, Layout.writes_word_iff] at writes
      obtain ⟨_, _, ⟨-, rfl⟩, ⟨_, _, rfl, ⟨body, _, inner, rfl, rfl⟩, rfl⟩, rfl⟩ := writes
      obtain ⟨value, found, row⟩ := Layout.writes_needed_iff.mp inner
      have held := Node.field_of_field? found
      have header : Line.ended.Fits
          ("namespace " ++ Naming.moduleNamespace (node.field "id").name ++ ";\n") :=
        Text.EndsLine.append (by decide) _
      have part : Part.moduleBody ∈ Construct.moduleDeclaration.parts := by decide
      have read : ⟨"body", .nodeOrNodes, .rendered⟩ ∈ Part.moduleBody.readings :=
        List.mem_singleton_self _
      have fulfils := (Node.readable_iff_parts formed.known).mp readable _ part _ read
      have rest : (Line.across lines (node.field "body")).Fits body := by
        rcases fulfils.1 with nothing | ⟨child, same⟩ | ⟨items, same, -⟩
        · rw [Node.field?_eq_none_iff.mpr nothing] at found
          cases found
        · cases held.symm.trans same
          have inside := Node.nodesOf_field same
          obtain ⟨below, plain⟩ := formed.child readable tree part read child inside
          rw [held]
          exact ih child inside below plain (Position.within_isUsable node)
            (Layout.writes_visit_iff.mp row)
        · cases held.symm.trans same
          change (Layout.statements node "body" (.list items)).Writes _ _ at row
          rw [← held] at row
          exact formed.statements_fit readable tree part read (.inr rfl)
            (fun child inside below plain place fine slot one => ih child inside below plain fine one)
            row
      have whole := header.append rest
      rwa [String.append_empty, String.empty_append]
  | @exportedDeclaration node value line formed held declares statement ih =>
      obtain ⟨written, writes, rfl⟩ := formed.writes (by decide) readable usable rendered
      simp only [Construct.layout, Layout.exported, Node.field?_node held, Layout.writes_wanting_iff,
        Layout.writes_next_iff, Layout.writes_visit_iff, Layout.writes_shaped_iff,
        Layout.writes_word_iff] at writes
      obtain ⟨-, inner, _, within, ⟨_, -, rfl⟩, rfl⟩ := writes
      have owes : Construct.exportDeclaration.owesTerminator options node position = false := by
        simp [Construct.owesTerminator, held, declares]
      have part : Part.exported ∈ Construct.exportDeclaration.parts := by decide
      obtain ⟨below, plain⟩ := formed.child readable tree part (List.mem_cons_self ..) value
        (Node.nodesOf_field held)
      rw [owes, String.append_empty]
      exact ih below plain (Position.within_isUsable node) within
  | @exportedExpression node value formed held expression =>
      obtain ⟨written, writes, rfl⟩ := formed.writes (by decide) readable usable rendered
      simp only [Construct.layout, Layout.exported, Node.field?_node held, Layout.writes_wanting_iff,
        Layout.writes_next_iff, Layout.writes_visit_iff, Layout.writes_shaped_iff,
        Layout.writes_word_iff] at writes
      obtain ⟨-, inner, _, within, ⟨_, -, rfl⟩, rfl⟩ := writes
      have owes : Construct.exportDeclaration.owesTerminator options node position = true := by
        simp [Construct.owesTerminator, held, expression.not_declaration]
      rw [owes, String.append_empty]
      have part : Part.exported ∈ Construct.exportDeclaration.parts := by decide
      exact (formed.operand_isUnended readable tree part (List.mem_cons_self ..) unended held
        expression within).endsLine_statement
  | @exportedNames node lines formed nothing each ih =>
      obtain ⟨written, writes, rfl⟩ := formed.writes (by decide) readable usable rendered
      have absent : node.field? "declaration" = none := by
        simpa [Node.has] using nothing
      have owes : Construct.exportDeclaration.owesTerminator options node position = false := by
        simp [Construct.owesTerminator, Node.field?_eq_none_iff.mp absent]
      simp only [Construct.layout, Layout.exported, absent] at writes
      obtain ⟨value, found, row⟩ := Layout.writes_needed_iff.mp writes
      rw [← Node.field_of_field? found] at row
      rw [owes]
      have part : Part.exported ∈ Construct.exportDeclaration.parts := by decide
      exact formed.statements_fit readable tree part
        (List.mem_cons_of_mem _ (List.mem_singleton_self _)) (.inl rfl)
        (fun child inside below plain place fine slot one => ih child inside below plain fine one)
        row
  | @imported node lines formed source each =>
      obtain ⟨found, held⟩ := Node.has_iff.mp source
      have named : (Position.within node).importSource = .named (found.name) := by
        simp [Position.within, Node.importSource, Node.require, held]
      obtain ⟨written, writes, rfl⟩ := formed.writes (by decide) readable usable rendered
      obtain ⟨items, listed, row⟩ :=
        Layout.writes_shaped_iff.mp (Layout.writes_wanting_iff.mp writes).2
      have part : Part.optionalChildren "specifiers" ∈ Construct.importDeclaration.parts := by decide
      have fulfils := (Node.readable_iff_parts formed.known).mp readable _ part _
        (List.mem_singleton_self _)
      rcases fulfils.1 with nothing | ⟨specifiers, same, -⟩
      · cases (Node.optionalItems_of_null nothing).symm.trans listed
        simp only at nothing
        rw [nothing]
        exact Layout.writes_joined_nil_iff.mp row
      · cases (Node.optionalItems_of_list same).symm.trans listed
        refine formed.slots_fit readable tree part (List.mem_singleton_self _) rfl
          (fun child inside below plain slot one => ?_) (congrArg Value.items same) row
        exact (each child inside).fits below (Position.within_isUsable node) ⟨_, named⟩ one

/-- A statement in a list leaves a line of its own to the next one exactly when it does not
leave its line hanging: then its text is empty or ends its line, wherever it stands. -/
theorem render_statement_closed_iff (unended : options.IsUnended) {line : Line}
    (statement : node.IsStatement options line) (readable : node.Readable)
    (tree : node.IsPlainTree Text.IsUnended) (usable : position.IsUsable) :
    ∃ text, (render options (.node node) position).outcome = .ok text ∧
      (text = "" ∨ Text.EndsLine text ↔ line ≠ .hanging) := by
  obtain ⟨text, rendered⟩ := (render_isSafe options readable usable).outcome
  exact ⟨text, rendered, (statement.fits unended readable tree usable rendered).closed_iff⟩

end

def bareDeclaration : Node :=
  let name : Node := ⟨⟨0, []⟩, "Identifier", [("name", .text "x")], none⟩
  let declarator : Node := ⟨⟨0, []⟩, "VariableDeclarator", [("id", .node name)], none⟩
  ⟨⟨0, []⟩, "VariableDeclaration", [("declarations", .list [.node declarator])], none⟩

def callStatement : Node :=
  let name : Node := ⟨⟨0, []⟩, "Identifier", [("name", .text "f")], none⟩
  let call : Node := ⟨⟨0, []⟩, "CallExpression", [("callee", .node name)], none⟩
  ⟨⟨0, []⟩, "ExpressionStatement", [("expression", .node call)], none⟩

def bareProgram : Node :=
  ⟨⟨0, []⟩, "Program", [("body", .list [.node bareDeclaration, .node callStatement])], none⟩

theorem bareDeclaration_isStatement : bareDeclaration.IsStatement {} .hanging := by
  refine .declaration (fun _ => .hanging) ⟨rfl, fun _ => List.forall_mem_singleton.mpr rfl⟩
    (List.forall_mem_singleton.mpr ?_)
  exact .bare ⟨rfl, fun _ => List.forall_mem_cons.mpr ⟨rfl, List.forall_mem_singleton.mpr trivial⟩⟩
    rfl rfl rfl (by decide) (by decide)

theorem bareProgram_isStatement : bareProgram.IsStatement {} .ended := by
  let lines (node : Node) : Line :=
    if node.kind = "VariableDeclaration" then .hanging else .ended
  refine .list lines ⟨rfl, fun _ => List.forall_mem_singleton.mpr rfl⟩
    (List.forall_mem_cons.mpr ⟨bareDeclaration_isStatement, List.forall_mem_singleton.mpr ?_⟩)
  exact .expression ⟨rfl, fun _ => List.forall_mem_singleton.mpr rfl⟩ rfl
    (Node.isExpression_of_check 2 (by decide))

theorem bareProgram_closed : ∃ text, (render {} (.node bareProgram) {}).outcome = .ok text ∧
    (text = "" ∨ Text.EndsLine text ↔ Line.ended ≠ .hanging) :=
  render_statement_closed_iff ⟨by decide, by decide⟩ bareProgram_isStatement
    (Node.readable_of_check 6 (by decide)) (Node.isPlainTree_of_check 6 (by decide))
    ⟨rfl, ImportSource.noConfusion⟩

/-- A statement without a terminator of its own runs into the next one. -/
theorem bareDeclaration_fuses :
    bareProgram.Readable ∧ bareProgram.IsPlainTree Text.IsUnended ∧
      bareProgram.IsStatement {} .ended ∧
      (render {} (.node bareDeclaration) (.within bareProgram)).outcome = .ok "$x" ∧
      ¬ ("$x" = "" ∨ Text.EndsLine "$x") ∧
      (render {} (.node bareProgram) {}).outcome = .ok "$xf();\n" :=
  ⟨Node.readable_of_check 6 (by decide), Node.isPlainTree_of_check 6 (by decide),
    bareProgram_isStatement, rfl, by decide, rfl⟩

end PhpRendering
