import PhpRendering.Proofs.Header

/-!
# Terminators of statements

Which texts end statements: none in an expression apart from the bodies of its functions,
one after an expression that is a statement, two in the header of a counting loop and
none in the other headers. The declaration on the left of a loop over keys is rendered as
it stands, with the terminator of every variable but the last.
-/

namespace PhpRendering

/-- The terminators around expressions without semicolons and brackets in their names.
Outside a statement nothing ends in an expression, apart from what its functions hold. An
expression has one text where it stands for its value: each statement made of it adds one
terminator to that text, and the headers of branches add none. The header of a counting
loop ends two clauses; that of a loop over keys ends none, when no variable but the last
has an initial value. -/
theorem terminator_policy {options : Options} (names : options.IsPlain (Text.Avoids Text.delimiters)) :
    (∀ node : Node, node.IsPlainExpression →
      (∀ position : Position, position.IsUsable → position.inStatement = false →
        ∃ text, (render options (.node node) position).outcome = .ok text ∧
          Text.ends text = 0) ∧
      ∃ text, node.HasText options text ∧ node.EndsOnce options text ∧
        node.HeadsQuietly options text) ∧
    (∀ (loop : Node) (position : Position), loop.IsCountingLoop → position.IsUsable →
      ∃ init test update body, (render options (.node loop) position).outcome =
          .ok (countingHeader init test update ++ (" \x7b\n" ++ body ++ "\x7d\n")) ∧
        (render options (loop.field "body") (.within loop)).outcome = .ok body ∧
        Text.ends (countingHeader init test update) = 2) ∧
    ∀ (loop : Node) (position : Position), loop.IsKeyLoop → position.IsUsable →
      ∃ right left body, (render options (.node loop) position).outcome =
          .ok (keyHeader right left ++ (" \x7b\n" ++ body ++ "\x7d\n")) ∧
        (render options (loop.field "body") (.within loop)).outcome = .ok body ∧
        Text.ends (keyHeader right left) = 0 := by
  refine ⟨fun node plain => ⟨fun position usable outside => ?_, ?_⟩, ?_, ?_⟩
  · obtain ⟨text, rendered, quiet⟩ := plain.exists_quiet names usable outside
    exact ⟨text, rendered, quiet.ends_eq_zero⟩
  · obtain ⟨text, has, quiet⟩ := plain.exists_text names
    exact ⟨text, has, plain.endsOnce has quiet, has.headsQuietly quiet⟩
  · exact fun loop position counting usable => counting.header names usable
  · exact fun loop position keys usable => keys.header names usable

/-! ## Sample trees -/

def variableNode (name : String) : Node :=
  ⟨⟨0, []⟩, "Identifier", [("name", .text name)], none⟩

def numberNode (number : String) : Node :=
  ⟨⟨0, []⟩, "Literal", [("raw", .text number)], none⟩

def initialisedNode (entry : String × String) : Node :=
  ⟨⟨0, []⟩, "VariableDeclarator",
    [("id", .node (variableNode entry.1)), ("init", .node (numberNode entry.2))], none⟩

def declarationNode (entries : List (String × String)) : Node :=
  ⟨⟨0, []⟩, "VariableDeclaration",
    [("declarations", .list (entries.map fun entry => .node (initialisedNode entry)))], none⟩

def statementsNode (kind : String) (statements : List Node) : Node :=
  ⟨⟨0, []⟩, kind, [("body", .list (statements.map .node))], none⟩

def countingNode : Node :=
  ⟨⟨0, []⟩, "ForStatement",
    [("init", .node (declarationNode [("i", "0")])), ("test", .node (variableNode "i")),
      ("body", .node (statementsNode "BlockStatement" []))],
    none⟩

def keysNode (entries : List (String × String)) : Node :=
  ⟨⟨0, []⟩, "ForInStatement",
    [("left", .node (declarationNode entries)), ("right", .node (variableNode "o")),
      ("body", .node (statementsNode "BlockStatement" []))],
    none⟩

theorem variableNode_isExpression (name : String) : (variableNode name).IsExpression :=
  have other : Rule.isDeclarationKind "Identifier" = false := by decide
  Node.isExpression_of_leaf rfl other (List.forall_mem_singleton.mpr rfl)

theorem numberNode_isExpression (number : String) : (numberNode number).IsExpression :=
  have other : Rule.isDeclarationKind "Literal" = false := by decide
  Node.isExpression_of_leaf rfl other (List.forall_mem_singleton.mpr rfl)

theorem declarationNode_isVariables (entries : List (String × String)) :
    (declarationNode entries).IsVariables where
  kind := rfl
  declares := rfl
  declarators := by
    intro declarator inside
    obtain ⟨value, listed, found⟩ := List.mem_filterMap.mp inside
    obtain ⟨entry, -, rfl⟩ := List.mem_map.mp listed
    cases found
    refine ⟨rfl, List.forall_mem_cons.mpr ⟨?_, List.forall_mem_singleton.mpr ?_⟩⟩
    · exact List.forall_mem_singleton.mpr (variableNode_isExpression entry.1)
    · exact List.forall_mem_singleton.mpr (numberNode_isExpression entry.2)

def callbackNode : Node :=
  let leave : Node := ⟨⟨0, []⟩, "BreakStatement", [], none⟩
  let function : Node := ⟨⟨0, []⟩, "FunctionExpression",
    [("params", .list []), ("body", .node (statementsNode "BlockStatement" [leave]))], none⟩
  ⟨⟨0, []⟩, "CallExpression",
    [("callee", .node (variableNode "f")), ("arguments", .list [.node function])], none⟩

/-- The terminator in the body of the function is none of the call around it. -/
theorem sampleNodes_follow_policy :
    ((render {} (.node callbackNode) {}).outcome = .ok "f(function () \x7b\nbreak;\n\x7d\n)" ∧
      Text.ends "f(function () \x7b\nbreak;\n\x7d\n)" = 0 ∧
      ∃ text, callbackNode.HasText {} text ∧ callbackNode.EndsOnce {} text ∧
        callbackNode.HeadsQuietly {} text) ∧
    (∃ init test update body, (render {} (.node countingNode) {}).outcome =
        .ok (countingHeader init test update ++ (" \x7b\n" ++ body ++ "\x7d\n")) ∧
      Text.ends (countingHeader init test update) = 2) ∧
    ∃ right left body, (render {} (.node (keysNode [("a", "1")])) {}).outcome =
        .ok (keyHeader right left ++ (" \x7b\n" ++ body ++ "\x7d\n")) ∧
      Text.ends (keyHeader right left) = 0 := by
  have names : Options.IsPlain (Text.Avoids Text.delimiters) {} := ⟨by decide, by decide, by decide⟩
  have usable : Position.IsUsable {} := ⟨rfl, ImportSource.noConfusion⟩
  obtain ⟨expressions, counting, keys⟩ := terminator_policy names
  refine ⟨?_, ?_, ?_⟩
  · have plain : callbackNode.IsPlainExpression := ⟨Node.isExpression_of_check 3 rfl,
      Node.readable_of_check 6 (by decide), Node.isPlainTree_of_check 6 (by decide)⟩
    obtain ⟨outside, statements⟩ := expressions callbackNode plain
    obtain ⟨text, rendered, zero⟩ := outside {} usable rfl
    have written : (render {} (.node callbackNode) {}).outcome =
        .ok "f(function () \x7b\nbreak;\n\x7d\n)" := rfl
    obtain rfl := Except.ok.inj (rendered.symm.trans written)
    exact ⟨written, zero, statements⟩
  · obtain ⟨init, test, update, body, rendered, -, two⟩ := counting countingNode {}
      { kind := rfl
        readable := Node.readable_of_check 4 (by decide)
        plain := Node.isPlainTree_of_check 4 (by decide)
        init := List.forall_mem_singleton.mpr (.inr (declarationNode_isVariables _))
        clauses := List.forall_mem_cons.mpr
          ⟨List.forall_mem_singleton.mpr (variableNode_isExpression "i"),
            List.forall_mem_singleton.mpr (List.forall_mem_nil _)⟩
        body := rfl } usable
    exact ⟨init, test, update, body, rendered, two⟩
  · obtain ⟨right, left, body, rendered, -, zero⟩ := keys (keysNode [("a", "1")]) {}
      { kind := rfl
        readable := Node.readable_of_check 4 (by decide)
        plain := Node.isPlainTree_of_check 4 (by decide)
        right := ⟨_, rfl, variableNode_isExpression "o"⟩
        left := ⟨_, rfl, .inr
          ⟨declarationNode_isVariables _, fun items listed declarator early => by
            cases listed
            cases early⟩⟩
        body := rfl } usable
    exact ⟨right, left, body, rendered, zero⟩

def classFunctionNode : Node :=
  let constructor : Node := ⟨⟨0, []⟩, "MethodDefinition",
    [("key", .node (variableNode "constructor")),
      ("value", .node ⟨⟨0, []⟩, "FunctionExpression",
        [("body", .node (statementsNode "BlockStatement" []))], none⟩)],
    none⟩
  let declaration : Node := ⟨⟨0, []⟩, "ClassDeclaration",
    [("id", .node (variableNode "A")), ("body", .node (statementsNode "ClassBody" [constructor]))],
    none⟩
  ⟨⟨0, []⟩, "FunctionExpression",
    [("body", .node (statementsNode "BlockStatement" [declaration]))], none⟩

/-- Two ways for ends to get where none are expected. A loop over keys may declare two
variables, and the terminator of the first one stays in the header. The name that is
chosen for constructors may close the bodies around it. -/
theorem unexpected_ends :
    ((keysNode [("a", "1"), ("b", "2")]).Readable ∧
      (keysNode [("a", "1"), ("b", "2")]).IsPlainTree (Text.Avoids Text.delimiters) ∧
      (declarationNode [("a", "1"), ("b", "2")]).IsVariables ∧
      (render {} (.node (keysNode [("a", "1"), ("b", "2")])) {}).outcome =
        .ok (keyHeader "$o" "$a = 1;\n$b = 2" ++ (" \x7b\n" ++ "" ++ "\x7d\n")) ∧
      Text.ends (keyHeader "$o" "$a = 1;\n$b = 2") = 1) ∧
    classFunctionNode.IsPlainExpression ∧
      ∃ text, (render { constructorName := "\x7d\x7d\x7d;\x7b\x7b\x7b" } (.node classFunctionNode)
        {}).outcome = .ok text ∧ Text.ends text = 1 := by
  refine ⟨⟨Node.readable_of_check 4 (by decide), Node.isPlainTree_of_check 4 (by decide),
    declarationNode_isVariables _, rfl, by decide⟩, ?_, _, rfl, by decide⟩
  exact ⟨Node.isExpression_of_check 1 rfl, Node.readable_of_check 8 (by decide),
    Node.isPlainTree_of_check 8 (by decide)⟩

end PhpRendering
