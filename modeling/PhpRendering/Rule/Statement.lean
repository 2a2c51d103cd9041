import PhpRendering.Naming
import PhpRendering.Rule.Fragment

/-!
# Rules of statements

Statement lists, declarations, and the statements that branch and loop. Each
branch and each loop body stands between braces.
-/

namespace PhpRendering.Rule

/-- A list of statements: a program, a block or a class body. -/
def statementList (emit : Emitter) (node : Node) : Rendering := do
  let body ← required node "body"
  return .plain (← sequence emit node body)

/-- A declaration of variables, one statement per declarator. -/
def variableDeclaration (emit : Emitter) (node : Node) : Rendering := do
  let declarations ← required node "declarations"
  let outputs ← children emit (.within node) (← Emission.ofShape declarations.items)
  return .plain (Text.joined (← texts outputs))

/-- A declarator; only one with an initial value is a statement. Without one it is
whatever its target is. -/
def variableDeclarator (emit : Emitter) (node : Node) : Rendering := do
  let target ← child emit (← required node "id") (.within node)
  match node.field? "init" with
  | none => return ⟨target, false⟩
  | some init => return .statement (target.shown ++ " = " ++ (← shown emit init (.within node)))

def expressionStatement (emit : Emitter) (node : Node) : Rendering := do
  return ⟨← child emit (← required node "expression") (.within node), true⟩

def returnStatement (emit : Emitter) (node : Node) : Rendering := do
  match node.field? "argument" with
  | none => return .statement "return"
  | some argument => return .statement ("return " ++ (← text emit argument (.within node)))

def breakStatement : Rendering :=
  return .statement "break"

/-- The branch of an alternate; a block gets braces, anything else stands bare. -/
def alternateBranch (emit : Emitter) (node : Node) : Emission Fault String :=
  match node.field? "alternate" with
  | none => return ""
  | some alternate => do
      let branch ← Emission.ofShape alternate.asNode
      let text ← text emit alternate (.within node)
      if branch.kind = "BlockStatement" then return " else \x7b" ++ text ++ "\x7d"
      else return " else " ++ text

def ifStatement (emit : Emitter) (node : Node) : Rendering := do
  let test ← shown emit (← required node "test") (.within node)
  let consequent ← text emit (← required node "consequent") (.within node)
  let alternate ← alternateBranch emit node
  return .plain (endLine ("if (" ++ test ++ ") \x7b\n" ++ consequent ++ "\x7d" ++ alternate))

/-- The first clause of a counting loop. Declarators share it, separated by
commas. -/
def loopInit (emit : Emitter) (loop : Node) (init : Value) : Emission Fault String := do
  let start ← Emission.ofShape init.asNode
  if start.kind = "VariableDeclaration" then
    let declarations ← required start "declarations"
    let items ← Emission.ofShape declarations.items
    return commaSeparated (← Emission.each (fun item => inline emit item (.within start)) items)
  else inline emit init (.within loop)

def loopStart (emit : Emitter) (loop : Node) : Emission Fault String :=
  match loop.field? "init" with
  | none => return ""
  | some init => loopInit emit loop init

def optionalClause (emit : Emitter) (node : Node) (field : String) : Emission Fault String :=
  match node.field? field with
  | none => return ""
  | some clause => shown emit clause (.within node)

/-- A counting loop; empty clauses are kept. -/
def forStatement (emit : Emitter) (node : Node) : Rendering := do
  let init ← loopStart emit node
  let test ← optionalClause emit node "test"
  let update ← optionalClause emit node "update"
  let body ← shown emit (← required node "body") (.within node)
  let header := "for (" ++ init ++ "; " ++ test ++ "; " ++ update ++ ")"
  return .plain (header ++ " \x7b\n" ++ body ++ "\x7d\n")

def forInStatement (emit : Emitter) (node : Node) : Rendering := do
  let right ← shown emit (← required node "right") (.within node)
  let left ← inline emit (← required node "left") (.within node)
  let body ← shown emit (← required node "body") (.within node)
  let header := "foreach (" ++ right ++ " as " ++ left ++ " => " ++ Naming.discardedValue ++ ")"
  return .plain (header ++ " \x7b\n" ++ body ++ "\x7d\n")

def switchStatement (emit : Emitter) (node : Node) : Rendering := do
  let discriminant ← shown emit (← required node "discriminant") (.within node)
  let cases ← Emission.ofShape (node.optionalItems "cases")
  let texts ← Emission.each (fun clause => text emit clause (.within node)) cases
  let clauses := Text.joined (texts.map fun text => text ++ "\n")
  return .plain ("switch (" ++ discriminant ++ ") \x7b\n" ++ clauses ++ "\x7d\n")

/-- The label of a case; without a test it is the default clause. -/
def caseLabel (emit : Emitter) (node : Node) : Emission Fault String :=
  match node.field? "test" with
  | none => return "default:\n"
  | some test => do
      return "case " ++ (← shown emit test (.within node)) ++ ":\n"

def switchCase (emit : Emitter) (node : Node) : Rendering := do
  let label ← caseLabel emit node
  let consequent := if node.flag "consequent" then node.field "consequent" else .list []
  return .plain (label ++ (← sequence emit node consequent))

end PhpRendering.Rule
