import PhpRendering.Naming
import PhpRendering.Rule.Fragment
import PhpRendering.Tree.Shown

/-!
# Rules of expressions

Identifiers, literals, operators and the literals of objects and arrays. Operands
keep their order and no parentheses are added.
-/

namespace PhpRendering.Rule

/-- An identifier: a variable, or its bare name as a callee, as a member, or as
the name of a class or namespace. -/
def identifier (node : Node) (position : Position) : Rendering :=
  if node.name = "" then .fail (.missing (node.missing "name"))
  else if position.isStatic || position.isCallee || position.isMemberProperty then
    return .plain node.name
  else return .plain (Naming.variableName node.name)

def punctuator (node : Node) : Rendering := do
  let value ← required node "value"
  return .plain value.shown

def literalText : Value → String
  | .scalar value => value.literal
  | other => other.shown

/-- A literal in its own spelling, whatever that is, or in one made for its value. -/
def literal (node : Node) : Rendering :=
  match node.field? "raw" with
  | some raw => return ⟨.held raw, false⟩
  | none => return .plain (literalText (node.field "value"))

def selfReference : Rendering :=
  return .plain Naming.selfReference

def side (emit : Emitter) (node : Node) (field : String) : Emission Fault String := do
  shown emit (← required node field) (.of node (node.occurrence field))

def binary (emit : Emitter) (node : Node) : Rendering := do
  let left ← side emit node "left"
  let right ← side emit node "right"
  let operator ← required node "operator"
  return .plain (left ++ " " ++ operator.shown ++ " " ++ right)

/-- An increment or decrement: the operator is added to its argument. -/
def update (emit : Emitter) (node : Node) : Rendering := do
  let argument ← child emit (← required node "argument") (.within node)
  let operator ← required node "operator"
  return ⟨← Emission.ofShape (argument.plus operator), false⟩

def objectLiteral (emit : Emitter) (node : Node) : Rendering := do
  let properties ← Emission.ofShape (node.optionalItems "properties")
  let entries ← children emit (.within node) properties
  return .plain ("array(" ++ commaSeparated (← texts entries) ++ ")")

/-- An array literal, whose holes become null. -/
def arrayLiteral (emit : Emitter) (node : Node) : Rendering := do
  let elements ← Emission.ofShape (node.optionalItems "elements")
  let outputs ← Emission.each (fun element =>
    if element.isNull then .done (.text "null") else child emit element (.within node)) elements
  return .plain ("array(" ++ commaSeparated (← texts outputs) ++ ")")

def unsupportedForm? (node : Node) : Option String :=
  if node.flag "computed" then some "computed key"
  else
    match (node.field "kind").text? with
    | some "get" => some "get accessor"
    | some "set" => some "set accessor"
    | _ => none

def keySpelling : Value → Except Crash String
  | .scalar (.text text) => .ok text
  | .node _ => .error .notAName
  | _ => .error .notANode

/-- The key of an object entry: the text of a literal or the name of an identifier. -/
def keyText (key : Node) : Except Crash String :=
  if key.kind = "Literal" then
    match (key.field "value").text? with
    | some text => .ok text
    | none =>
        if key.flag "raw" then keySpelling (key.field "raw")
        else .ok (literalText (key.field "value"))
  else .ok key.name

def property (emit : Emitter) (node : Node) : Rendering := do
  let key ← required node "key"
  let value ← required node "value"
  match unsupportedForm? node with
  | some feature => unsupported node feature
  | none => do
      let key ← Emission.ofShape key.asNode
      let name ← Emission.ofShape (keyText key)
      let text ← shown emit value (.within node)
      return .plain (Text.doubleQuoted name ++ " => " ++ text)

end PhpRendering.Rule
