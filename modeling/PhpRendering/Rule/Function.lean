import PhpRendering.Naming
import PhpRendering.Rule.Expression

/-!
# Rules of functions and classes

Function expressions and methods are rendered as declarations under the name
they have there. A function is entered after its parameters were rendered and
before its body is. A parameter with a default is rendered as an assignment.
-/

namespace PhpRendering.Rule

/-- The declaration with the parameters and the body of a function, under a name. -/
def asDeclaration (function : Node) (name : String) : Node :=
  let identifier : Node := ⟨function.origin, "Identifier", [("name", .text name)], none⟩
  function.replace "FunctionDeclaration" [("id", .node identifier)]

def defaultAssignment (function : Node) (target default : Value) : Node :=
  ⟨function.origin, "AssignmentExpression",
    [("operator", .text "="), ("left", target), ("right", default)], none⟩

def defaults (function : Node) : Value :=
  if function.flag "defaults" then function.field "defaults" else .list []

/-- What is rendered for a parameter. A pattern brings its own default with it. -/
def parameterValue (function : Node) (param default : Value) : Emission Fault Value := do
  let node ← Emission.ofShape param.asNode
  if node.kind = "AssignmentPattern" then
    let target ← required node "left"
    let default ← required node "right"
    return .node (defaultAssignment function target default)
  else if default.isNull then return param
  else return .node (defaultAssignment function param default)

def parameter (emit : Emitter) (function : Node) (param : Value) (index : Nat) :
    Emission Fault Output := do
  let default ← Emission.ofShape ((defaults function).itemAt index)
  child emit (← parameterValue function param default) (.within function)

def parameters (emit : Emitter) (function : Node) : Emission Fault (List Output) := do
  let params ← Emission.ofShape (function.optionalItems "params")
  Emission.each (fun (param, index) => parameter emit function param index) params.zipIdx

def functionDeclaration (emit : Emitter) (node : Node) : Rendering := do
  let params ← parameters emit node
  let body ← required node "body"
  Emission.signal (.entered node)
  let names ← texts params
  let statements ← text emit body (.within node)
  let header := "function " ++ (node.field "id").name ++ "(" ++ commaSeparated names ++ ")"
  return .plain (header ++ " \x7b\n" ++ statements ++ "\x7d\n")

def functionExpression (emit : Emitter) (node : Node) (position : Position) : Rendering := do
  let declaration := asDeclaration node (node.field "id").name
  return ⟨← child emit (.node declaration) position, false⟩

def superclass (emit : Emitter) (node : Node) : Emission Fault String :=
  match node.field? "superClass" with
  | none => return ""
  | some value => do
      let parent ← Emission.ofShape value.asNode
      if parent.kind = "Identifier" then return " extends " ++ parent.name
      else return " extends " ++ (← shown emit value (.within node))

def classDeclaration (emit : Emitter) (node : Node) : Rendering := do
  let id ← required node "id"
  let parent ← superclass emit node
  let body ← required node "body"
  let members ← text emit body (.within node)
  return .plain ("class " ++ id.name ++ parent ++ "\n\x7b\n" ++ members ++ "\n\x7d\n")

def methodFunction : Value → Except Crash Node
  | .scalar (.text _) => .error .notAName
  | value => value.asNode

/-- A method of a class. A blank line follows unless it is the last one. -/
def methodDefinition (emit : Emitter) (options : Options) (node : Node) (position : Position) :
    Rendering := do
  let key ← required node "key"
  let value ← required node "value"
  match unsupportedForm? node with
  | some feature => unsupported node feature
  | none => do
      let function ← Emission.ofShape (methodFunction value)
      let declaration := asDeclaration function (Naming.methodName options.constructorName key.name)
      let text ← text emit (.node declaration) (.within node)
      let modifiers := if node.flag "static" then "public static " else "public "
      let gap := if position.isLast then "" else "\n"
      return .plain (modifiers ++ text ++ gap)

end PhpRendering.Rule
