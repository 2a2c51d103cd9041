import PhpRendering.Proofs.Depth

/-!
# Grouping of operations

A formula is a tree of names and binary operations. Its text is the sequence of its
names and operators in reading order, with spaces between them and without
parentheses. So two formulas have one text exactly when they agree in that sequence,
however they are grouped.
-/

namespace PhpRendering

/-! ## Separated texts -/

namespace Text

theorem separatedBy_append_of_ne_nil {separator : String} {first second : List String}
    (some : first ≠ []) (more : second ≠ []) :
    separatedBy separator (first ++ second) =
      separatedBy separator first ++ separator ++ separatedBy separator second := by
  rw [separatedBy_append, List.isEmpty_eq_false_iff.mpr some, List.isEmpty_eq_false_iff.mpr more]
  rfl

theorem toList_separatedBy (separator : Char) (texts : List String) :
    (separatedBy (String.singleton separator) texts).toList =
      [separator].intercalate (texts.map String.toList) := by
  induction texts with
  | nil => rfl
  | cons text rest ih =>
      cases rest with
      | nil => simp
      | cons next later =>
          rw [separatedBy_cons_cons, String.toList_append, String.toList_append, ih]
          simp [List.intercalate_cons_cons]

/-- Texts without the separator can be told apart again. -/
theorem separatedBy_inj (separator : Char) {first second : List String} (some : first ≠ [])
    (more : second ≠ []) (free : ∀ text ∈ first, separator ∉ text.toList)
    (freeToo : ∀ text ∈ second, separator ∉ text.toList)
    (same : separatedBy (String.singleton separator) first =
      separatedBy (String.singleton separator) second) : first = second := by
  have split {texts : List String} (any : texts ≠ [])
      (plain : ∀ text ∈ texts, separator ∉ text.toList) :
      (separatedBy (String.singleton separator) texts).toList.splitOn separator =
        texts.map String.toList := by
    rw [toList_separatedBy]
    refine List.splitOn_intercalate separator ?_ (by simpa using any)
    exact fun letters held => by
      obtain ⟨text, among, rfl⟩ := List.mem_map.mp held
      exact plain text among
  have letters : first.map String.toList = second.map String.toList := by
    rw [← split some free, ← split more freeToo, same]
  exact (List.map_inj_right fun _ _ => String.toList_injective).mp letters

end Text

/-! ## Formulas -/

inductive Operator where
  | add
  | subtract
  | multiply
  | divide
  | conjunction
  | disjunction
deriving DecidableEq, Repr

def Operator.text : Operator → String
  | .add => "+"
  | .subtract => "-"
  | .multiply => "*"
  | .divide => "/"
  | .conjunction => "&&"
  | .disjunction => "||"

def Operator.kind : Operator → String
  | .conjunction => "LogicalExpression"
  | .disjunction => "LogicalExpression"
  | _ => "BinaryExpression"

inductive Formula where
  | identifier (name : String)
  | operation (operator : Operator) (left right : Formula)
deriving DecidableEq, Repr

inductive Token where
  | word (name : String)
  | sign (operator : Operator)
deriving DecidableEq, Repr

def Token.text : Token → String
  | .word name => Naming.variableName name
  | .sign operator => operator.text

namespace Formula

/-- The names and operators in reading order. The grouping is not in them. -/
def tokens : Formula → List Token
  | .identifier name => [.word name]
  | .operation operator left right => left.tokens ++ .sign operator :: right.tokens

def text (formula : Formula) : String :=
  Text.separatedBy " " (formula.tokens.map Token.text)

def depth : Formula → Nat
  | .identifier _ => 1
  | .operation _ left right => max left.depth right.depth + 1

/-- Whether a node is the root of a formula. Names are not empty and hold no space. -/
inductive IsAt : Formula → Node → Prop where
  | identifier {name : String} {node : Node} (kind : node.kind = "Identifier")
      (named : node.field "name" = .text name) (something : name ≠ "")
      (plain : ' ' ∉ name.toList) : IsAt (.identifier name) node
  | operation {operator : Operator} {left right : Formula} {node first second : Node}
      (kind : node.kind = operator.kind) (written : node.field "operator" = .text operator.text)
      (atLeft : node.field "left" = .node first) (atRight : node.field "right" = .node second)
      (isLeft : IsAt left first) (isRight : IsAt right second) :
      IsAt (.operation operator left right) node

theorem tokens_ne_nil (formula : Formula) : formula.tokens ≠ [] := by
  cases formula with
  | identifier name => exact List.cons_ne_nil _ _
  | operation operator left right => simp [tokens]

theorem text_operation (operator : Operator) (left right : Formula) :
    (operation operator left right).text =
      left.text ++ " " ++ operator.text ++ " " ++ right.text := by
  have before : left.tokens.map Token.text ≠ [] := by simpa using left.tokens_ne_nil
  have after : right.tokens.map Token.text ≠ [] := by simpa using right.tokens_ne_nil
  have spelled : (operation operator left right).tokens =
      left.tokens ++ .sign operator :: right.tokens := rfl
  unfold text
  rw [spelled, List.map_append, Text.separatedBy_append_of_ne_nil before (by simp), List.map_cons,
    ← List.singleton_append, Text.separatedBy_append_of_ne_nil (by simp) after]
  simp [Token.text, String.append_assoc]

theorem IsAt.depth_le_height {formula : Formula} {node : Node} (isAt : formula.IsAt node) :
    formula.depth ≤ node.height := by
  induction isAt with
  | @identifier name node kind named something plain =>
      exact Nat.zero_lt_of_lt (node.height_field_lt "name")
  | @operation operator left right node first second kind written atLeft atRight isLeft isRight
      lower lowerRight =>
      have below := node.height_field_lt "left"
      have belowRight := node.height_field_lt "right"
      rw [atLeft, Value.height] at below
      rw [atRight, Value.height] at belowRight
      simp only [depth]
      omega

end Formula

/-! ## The text of a formula -/

structure Position.IsPlain (position : Position) : Prop where
  isStatic : position.isStatic = false
  isCallee : position.isCallee = false
  isMemberProperty : position.isMemberProperty = false

theorem Position.IsPlain.of (parent : Node) (child : Occurrence) :
    (Position.of parent child).IsPlain := by
  unfold Position.of
  split <;> exact ⟨rfl, rfl, rfl⟩

theorem Rule.required_eq_done {node : Node} {field : String} {value : Value}
    (found : node.field? field = some value) : Rule.required node field = .done value := by
  unfold Rule.required Node.require
  rw [found]
  rfl

theorem Rule.child_eq_done {render : Renderer} {value : Value} {position : Position} {text : String}
    (rendered : render value position = .done text) :
    Rule.child render value position = .done text := by
  unfold Rule.child
  rw [rendered]
  rfl

/-- A name is a variable where nothing else is asked of it. -/
theorem renderNode_identifier {node : Node} {name : String} (kind : node.kind = "Identifier")
    (named : node.field "name" = .text name) (something : name ≠ "") (render : Renderer)
    (options : Options) {position : Position} (plain : position.IsPlain) :
    renderNode render options node position = .done (Naming.variableName name) := by
  have known : Construct.ofKind? node.kind = some .identifier := by
    rw [kind]
    rfl
  have bearer : node.name = name := by
    unfold Node.name
    rw [named]
    rfl
  unfold renderNode Node.layout Node.owesTerminator
  rw [known]
  dsimp only [Construct.layout]
  rw [bearer, if_neg something, plain.isStatic, plain.isCallee, plain.isMemberProperty]
  rfl

/-- An operation is its operands with the operator between them. -/
theorem renderNode_operation {node first second : Node} {operator : Operator}
    (kind : node.kind = operator.kind) (written : node.field "operator" = .text operator.text)
    (atLeft : node.field "left" = .node first) (atRight : node.field "right" = .node second)
    {render : Renderer} {left right : String}
    (renderedLeft : render (.node first) (.of node (node.occurrence "left")) = .done left)
    (renderedRight : render (.node second) (.of node (node.occurrence "right")) = .done right)
    (options : Options)
    (position : Position) :
    renderNode render options node position =
      .done (left ++ " " ++ operator.text ++ " " ++ right) := by
  have known : Construct.ofKind? node.kind = some .binary := by
    rw [kind]
    cases operator <;> rfl
  have sign : node.field? "operator" = some (.text operator.text) :=
    Node.field?_eq_some_iff.mpr ⟨written, rfl⟩
  unfold renderNode Node.layout Node.owesTerminator
  rw [known]
  simp only [Construct.layout, Layout.closed, Layout.joined, Layout.side, Layout.present,
    Layout.write, Layout.write_needed, Rule.required_eq_done (Node.field?_node atLeft),
    Rule.required_eq_done (Node.field?_node atRight), Rule.required_eq_done sign,
    Rule.child_eq_done renderedLeft, Rule.child_eq_done renderedRight, Emission.done_andThen,
    written, String.append_empty, String.append_assoc]
  rfl

/-- A formula has its text, by induction on the formula. -/
theorem Formula.IsAt.renderWithin {formula : Formula} {node : Node} (isAt : formula.IsAt node)
    (options : Options) {depth : Nat} (enough : formula.depth ≤ depth) {position : Position}
    (plain : position.IsPlain) :
    PhpRendering.renderWithin options depth (.node node) position = .done formula.text := by
  induction isAt generalizing depth position with
  | @identifier name node kind named something free =>
      cases depth with
      | zero => cases enough
      | succ depth =>
          rw [renderWithin_succ]
          exact renderNode_identifier kind named something _ options plain
  | @operation operator left right node first second kind written atLeft atRight isLeft isRight
      ih ihRight =>
      cases depth with
      | zero => cases enough
      | succ depth =>
          have low : max left.depth right.depth ≤ depth := Nat.le_of_succ_le_succ enough
          rw [text_operation, renderWithin_succ]
          exact renderNode_operation kind written atLeft atRight
            (ih (Nat.le_trans (Nat.le_max_left _ _) low) (.of _ _))
            (ihRight (Nat.le_trans (Nat.le_max_right _ _) low) (.of _ _)) options position

theorem Formula.IsAt.render {formula : Formula} {node : Node} (isAt : formula.IsAt node)
    (options : Options) {position : Position} (plain : position.IsPlain) :
    PhpRendering.render options (.node node) position = .done formula.text := by
  have high := isAt.depth_le_height
  refine isAt.renderWithin options ?_ plain
  rw [Value.height]
  omega

/-! ## Formulas with one text -/

theorem Operator.text_inj {first second : Operator} (same : first.text = second.text) :
    first = second := by
  revert same
  cases first <;> cases second <;> decide

theorem Operator.text_ne_variableName (operator : Operator) (name : String) :
    operator.text ≠ Naming.variableName name := by
  intro same
  have letters : operator.text.toList.head? = some '$' := by
    rw [same, Naming.variableName, String.toList_append]
    rfl
  revert letters
  cases operator <;> decide

/-- The text of a token tells the token. -/
theorem Token.text_inj {first second : Token} (same : first.text = second.text) :
    first = second := by
  cases first with
  | word name =>
      cases second with
      | word other =>
          have letters := congrArg String.toList same
          simp only [Token.text, Naming.variableName, String.toList_append,
            List.append_cancel_left_eq] at letters
          rw [String.toList_injective letters]
      | sign operator => exact absurd same.symm (operator.text_ne_variableName name)
  | sign operator =>
      cases second with
      | word name => exact absurd same (operator.text_ne_variableName name)
      | sign other => rw [Operator.text_inj same]

namespace Formula

theorem IsAt.tokens_free {formula : Formula} {node : Node} (isAt : formula.IsAt node) :
    ∀ token ∈ formula.tokens, ' ' ∉ token.text.toList := by
  induction isAt with
  | identifier kind named something plain =>
      refine List.forall_mem_singleton.mpr fun held => ?_
      rw [Token.text, Naming.variableName, String.toList_append] at held
      exact (List.mem_append.mp held).elim (by decide) plain
  | @operation operator left right node first second kind written atLeft atRight isLeft isRight
      free freeRight =>
      refine List.forall_mem_append.mpr ⟨free, List.forall_mem_cons.mpr ⟨?_, freeRight⟩⟩
      cases operator <;> decide

/-- The text of a formula tells its tokens. -/
theorem IsAt.tokens_eq {first second : Formula} {one other : Node} (isFirst : first.IsAt one)
    (isSecond : second.IsAt other) (same : first.text = second.text) :
    first.tokens = second.tokens := by
  have spelled : first.tokens.map Token.text = second.tokens.map Token.text := by
    refine Text.separatedBy_inj ' ' (by simpa using first.tokens_ne_nil)
      (by simpa using second.tokens_ne_nil) ?_ ?_ same
    · intro text held
      obtain ⟨token, among, rfl⟩ := List.mem_map.mp held
      exact isFirst.tokens_free token among
    · intro text held
      obtain ⟨token, among, rfl⟩ := List.mem_map.mp held
      exact isSecond.tokens_free token among
  exact (List.map_inj_right fun _ _ => Token.text_inj).mp spelled

/-- The grouping of a formula is not in its text: two formulas are rendered as the same
text exactly when they have the same names and operators in the same order. -/
theorem rendered_eq_iff_tokens_eq (options : Options) {first second : Formula} {one other : Node}
    (isFirst : first.IsAt one) (isSecond : second.IsAt other) {position place : Position}
    (plain : position.IsPlain) (plainPlace : place.IsPlain) :
    ∃ text otherText, (render options (.node one) position).outcome = .ok text ∧
      (render options (.node other) place).outcome = .ok otherText ∧
      (text = otherText ↔ first.tokens = second.tokens) := by
  refine ⟨first.text, second.text, congrArg Emission.outcome (isFirst.render options plain),
    congrArg Emission.outcome (isSecond.render options plainPlace), isFirst.tokens_eq isSecond, ?_⟩
  intro same
  unfold text
  rw [same]

def node (origin : Origin) : Formula → Node
  | .identifier name => ⟨origin, "Identifier", [("name", .text name)], none⟩
  | .operation operator left right =>
      ⟨origin, operator.kind,
        [("operator", .text operator.text),
          ("left", .node (left.node (origin.down (.member "left")))),
          ("right", .node (right.node (origin.down (.member "right"))))],
        none⟩

theorem node_isAt (origin : Origin) {formula : Formula}
    (plain : ∀ name, .word name ∈ formula.tokens → name ≠ "" ∧ ' ' ∉ name.toList) :
    formula.IsAt (formula.node origin) := by
  induction formula generalizing origin with
  | identifier name =>
      obtain ⟨something, free⟩ := plain name (List.mem_singleton_self _)
      exact .identifier rfl rfl something free
  | operation operator left right ih ihRight =>
      refine .operation rfl rfl rfl rfl (ih _ fun name held => ?_) (ihRight _ fun name held => ?_)
      · exact plain name (List.mem_append_left _ held)
      · exact plain name (List.mem_append_right _ (List.mem_cons_of_mem _ held))

def product : Formula :=
  .operation .multiply (.identifier "a") (.operation .add (.identifier "b") (.identifier "c"))

def sum : Formula :=
  .operation .add (.operation .multiply (.identifier "a") (.identifier "b")) (.identifier "c")

theorem product_isAt (origin : Origin) : product.IsAt (product.node origin) := by
  refine node_isAt origin fun name held => ?_
  simp [product, tokens] at held
  rcases held with rfl | rfl | rfl <;> decide

theorem sum_isAt (origin : Origin) : sum.IsAt (sum.node origin) := by
  refine node_isAt origin fun name held => ?_
  simp [sum, tokens] at held
  rcases held with rfl | rfl | rfl <;> decide

/-- The product and the sum are two formulas with one text. -/
theorem product_rendered_as_sum :
    product ≠ sum ∧
      ∃ text, (render {} (.node (product.node ⟨0, []⟩)) {}).outcome = .ok text ∧
        (render {} (.node (sum.node ⟨1, []⟩)) {}).outcome = .ok text := by
  refine ⟨by decide, ?_⟩
  have plain : Position.IsPlain {} := ⟨rfl, rfl, rfl⟩
  obtain ⟨text, otherText, rendered, renderedSum, same⟩ :=
    rendered_eq_iff_tokens_eq {} (product_isAt ⟨0, []⟩) (sum_isAt ⟨1, []⟩) plain plain
  obtain rfl := same.mpr rfl
  exact ⟨text, rendered, renderedSum⟩

end Formula

end PhpRendering
