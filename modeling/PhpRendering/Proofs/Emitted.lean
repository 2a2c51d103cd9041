import PhpRendering.Proofs.Completeness
import PhpRendering.Proofs.Standing

/-!
# Emitted positions

Some positions of a tree are never rendered: identifiers of declarations, keys, labels,
names, and whatever fields a construct does not have. All other positions are emitted. In
a node that is rendered without an obstacle, each emitted position lies in the region of
some rendering, unless no function can stand there.
-/

namespace PhpRendering

/-! ## The table of emitted fields -/

def Construct.emittedFields : Construct → List String
  | .statementList => ["body"]
  | .variableDeclaration => ["declarations"]
  | .variableDeclarator => ["id", "init"]
  | .identifier => []
  | .punctuator => []
  | .literal => []
  | .selfReference => []
  | .binary => ["left", "right"]
  | .update => ["argument"]
  | .expressionStatement => ["expression"]
  | .call => ["callee", "arguments"]
  | .construction => ["callee", "arguments"]
  | .member => ["object", "property"]
  | .functionDeclaration => ["params", "defaults", "body"]
  | .functionExpression => ["params", "defaults", "body"]
  | .classDeclaration => ["superClass", "body"]
  | .methodDefinition => ["value"]
  | .objectLiteral => ["properties"]
  | .arrayLiteral => ["elements"]
  | .property => ["value"]
  | .returnStatement => ["argument"]
  | .ifStatement => ["test", "consequent", "alternate"]
  | .forStatement => ["init", "test", "update", "body"]
  | .forInStatement => ["right", "left", "body"]
  | .switchStatement => ["discriminant", "cases"]
  | .switchCase => ["test", "consequent"]
  | .breakStatement => []
  | .moduleDeclaration => ["body"]
  | .exportDeclaration => ["declaration", "specifiers"]
  | .importDeclaration => ["specifiers"]
  | .importSpecifier => []

/-- Whether the nodes in a field of a node are rendered. The function of a method is one
whatever its kind, a pattern brings the two sides of a parameter, and an export has
either a declaration or specifiers. -/
def Node.emits (node : Node) (isMethod : Bool) (name : String) : Bool :=
  if isMethod then Construct.functionExpression.emittedFields.contains name
  else if node.kind = "AssignmentPattern" then ["left", "right"].contains name
  else
    match Construct.ofKind? node.kind with
    | none => false
    | some construct =>
        construct.emittedFields.contains name &&
          !(construct == .exportDeclaration && name == "specifiers" && node.has "declaration")

/-- Only fields named value hold functions of methods. -/
theorem Value.isMethodPlace_of_ne (root : Value) {name : String} (other : name ≠ "value")
    (rest : List Step) : root.isMethodPlace (.member name :: rest) = false := by
  rw [isMethodPlace, beq_eq_false_iff_ne.mpr other, Bool.false_and]

/-- A node that is no function of a method emits fields of its construct only. -/
theorem Node.emits_construct {node : Node} {construct : Construct}
    (known : Construct.ofKind? node.kind = some construct) {name : String}
    (emits : node.emits false name = true) : name ∈ construct.emittedFields := by
  simp only [Node.emits, Bool.false_eq_true, if_false] at emits
  split at emits
  · next kind =>
      rw [kind] at known
      cases known
  · rw [known] at emits
    exact List.contains_iff_mem.mp (Bool.and_eq_true_iff.mp emits).1

namespace Value

/-- Whether an item of a list is rendered. An entry in the list of defaults of a function
is when there is a parameter for it that is no pattern with a default of its own. -/
def isUsedItem (root : Value) (index : Nat) : List Step → Bool
  | .member "defaults" :: rest =>
      match root.descendant (.item index :: .member "params" :: rest) with
      | .node param => param.kind != "AssignmentPattern"
      | _ => false
  | _ => true

def isEmitted (root : Value) : List Step → Bool
  | [] => true
  | .member name :: rest =>
      root.isEmitted rest &&
        match root.descendant rest with
        | .node holder => holder.emits (root.isMethodPlace rest) name
        | _ => false
  | .item index :: rest => root.isEmitted rest && root.isUsedItem index rest

/-! ## The way to a function -/

structure Heads (root : Value) (place target : List Step) : Prop where
  below : place <:+ target
  function : root.isFunctionAt target = true
  emitted : root.isEmitted target = true

theorem isEmitted_of_suffix {root : Value} {place target : List Step} (below : place <:+ target)
    (emitted : root.isEmitted target = true) : root.isEmitted place = true := by
  induction target with
  | nil =>
      rw [List.suffix_nil.mp below]
      rfl
  | cons step rest ih =>
      rcases List.suffix_cons_iff.mp below with rfl | deeper
      · exact emitted
      · refine ih deeper ?_
        cases step with
        | member name => exact (Bool.and_eq_true_iff.mp emitted).1
        | item index => exact (Bool.and_eq_true_iff.mp emitted).1

namespace Heads

variable {root : Value} {place target : List Step}

/-- The way ends at a place or goes one step further. -/
theorem next (heads : root.Heads place target) :
    place = target ∨ ∃ step, root.Heads (step :: place) target := by
  obtain ⟨before, same⟩ := heads.below
  rcases List.eq_nil_or_concat before with rfl | ⟨initial, step, rfl⟩
  · exact .inl same
  · refine .inr ⟨step, ⟨initial, ?_⟩, heads.function, heads.emitted⟩
    rw [← same, List.concat_append]

/-- No way goes through nothing. -/
theorem ne_null (heads : root.Heads place target) : root.descendant place ≠ .null := by
  intro nothing
  obtain ⟨before, same⟩ := heads.below
  have function := heads.function
  have ended : root.descendant target = .null := by
    rw [← same]
    clear same
    induction before with
    | nil => exact nothing
    | cons step rest ih =>
        change (root.descendant (rest ++ place)).down step = .null
        rw [ih]
        cases step <;> rfl
  unfold isFunctionAt at function
  rw [ended] at function
  cases function

/-- A way goes through nodes and lists only. -/
theorem node_or_list (heads : root.Heads place target) :
    (∃ node, root.descendant place = .node node) ∨ ∃ items, root.descendant place = .list items := by
  cases held : root.descendant place with
  | node node => exact .inl ⟨node, rfl⟩
  | list items => exact .inr ⟨items, rfl⟩
  | _ =>
      exfalso
      rcases heads.next with rfl | ⟨step, further⟩
      · have function := heads.function
        unfold isFunctionAt at function
        rw [held] at function
        cases function
      · apply further.ne_null
        change (root.descendant place).down step = .null
        rw [held]
        cases step <;> rfl

/-- What follows in a list is an item. -/
theorem item {items : List Value} (heads : root.Heads place target)
    (held : root.descendant place = .list items) :
    ∃ index item, items[index]? = some item ∧ root.descendant (.item index :: place) = item ∧
      item.isNull = false ∧ root.Heads (.item index :: place) target := by
  rcases heads.next with rfl | ⟨step, further⟩
  · have function := heads.function
    unfold isFunctionAt at function
    rw [held] at function
    cases function
  · have something := further.ne_null
    have down : root.descendant (step :: place) = (Value.list items).down step := by
      rw [← held]
      rfl
    cases step with
    | member name => exact absurd down something
    | item index =>
        change _ = items.getD index .null at down
        rw [List.getD_eq_getElem?_getD] at down
        cases found : items[index]? with
        | none =>
            rw [found] at down
            exact absurd down something
        | some item =>
            rw [found] at down
            refine ⟨index, item, found, down, ?_, further⟩
            rw [Bool.eq_false_iff]
            intro nothing
            exact something (down.trans (Value.eq_null_of_isNull nothing))

/-- What follows in a node is an emitted field, unless the node is the function. -/
theorem member {node : Node} (heads : root.Heads place target)
    (held : root.descendant place = .node node) :
    place = target ∨ ∃ name, node.emits (root.isMethodPlace place) name = true ∧
      root.Heads (.member name :: place) target ∧
      root.descendant (.member name :: place) = node.field name := by
  refine heads.next.imp_right ?_
  rintro ⟨step, further⟩
  have emitted := isEmitted_of_suffix further.below further.emitted
  have down : root.descendant (step :: place) = (Value.node node).down step := by
    rw [← held]
    rfl
  cases step with
  | item index => exact absurd down further.ne_null
  | member name =>
      have emits := (Bool.and_eq_true_iff.mp emitted).2
      rw [held] at emits
      exact ⟨name, emits, further, down⟩

/-- A way goes through a node that is no function into one of its emitted fields. -/
theorem member_of_not_function {node : Node} (heads : root.Heads place target)
    (held : root.descendant place = .node node) (method : root.isMethodPlace place = false)
    (declaration : node.kind ≠ "FunctionDeclaration") (expression : node.kind ≠ "FunctionExpression") :
    ∃ name, node.emits false name = true ∧ root.Heads (.member name :: place) target ∧
      root.descendant (.member name :: place) = node.field name := by
  rcases heads.member held with rfl | further
  · have function := heads.function
    unfold isFunctionAt at function
    rw [held, method] at function
    simp [declaration, expression] at function
  · rwa [method] at further

end Heads

end Value

end PhpRendering
