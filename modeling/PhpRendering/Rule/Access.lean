import PhpRendering.Rule.Fragment

/-!
# Rules of calls and member access

A function call takes the place of a call or a read that has a substitute. Every
other access is written with the connective that the casing of its names
chooses; inside a chain the enclosing access chooses it.
-/

namespace PhpRendering.Rule

def receiver (emit : Emitter) (member : Node) : Emission Fault Output := do
  child emit (← required member "object") (.within member)

def callReceiver (emit : Emitter) (call : Node) : Emission Fault Output := do
  let callee ← required call "callee"
  receiver emit (← Emission.ofShape callee.asNode)

def arguments (emit : Emitter) (call : Node) : Emission Fault (List Output) := do
  children emit (.within call) (← Emission.ofShape (call.optionalItems "arguments"))

def functionCall (function : String) (operands : List String) : String :=
  function ++ "(" ++ commaSeparated operands ++ ")"

def substituted (emit : Emitter) (node : Node) : Substitute → Emission Fault String
  | .receiverFirst function => do
      let first ← callReceiver emit node
      let operands ← arguments emit node
      return functionCall function (← texts (first :: operands))
  | .receiverLast function => do
      let operands ← arguments emit node
      let last ← callReceiver emit node
      return functionCall function (← texts (operands ++ [last]))
  | .propertyFunction function => do
      return functionCall function [(← receiver emit node).shown]
  | .charAt => do
      let operands ← arguments emit node
      let text ← callReceiver emit node
      return functionCall "substr" [text.shown, (operands.headD (.text "0")).shown, "1"]
  | .constant text => return text

def methodSubstitute? (options : Options) (callee : Node) : Except Crash (Option Substitute) :=
  if callee.kind = "MemberExpression" then do
    return options.substitutes.method? (← callee.accessedName)
  else .ok none

/-- The substitute of a member access at a position. Callees and written members have
none. -/
def propertySubstitute? (options : Options) (member : Node) (position : Position) :
    Except Crash (Option Substitute) :=
  if position.isCallee || member.flag "computed" then .ok none
  else do
    position.checkParent
    if position.isTarget then return none
    return options.substitutes.property? (← member.accessedName)

/-- A call. One that stands alone as a statement owes a terminator, unless it has a
substitute. The output of the callee is continued by the arguments. -/
def call (emit : Emitter) (options : Options) (node : Node) (position : Position) :
    Rendering := do
  let callee ← required node "callee"
  let access ← Emission.ofShape callee.asNode
  match ← Emission.ofShape (methodSubstitute? options access) with
  | some substitute => return .plain (← substituted emit node substitute)
  | none => do
      let function ← child emit callee { Position.within node with isCallee := true }
      let operands ← texts (← arguments emit node)
      let called ← Emission.ofShape (function.continued (functionCall "" operands))
      Emission.ofShape position.checkParent
      return ⟨called, position.inStatement⟩

def asCall (construction : Node) : Node :=
  construction.replace "CallExpression" []

/-- A construction, rendered as the call it looks like. -/
def construction (emit : Emitter) (node : Node) : Rendering := do
  return .plain ("new " ++ (← text emit (.node (asCall node)) (.within node)))

/-- The position of the object of a member access. When the object is a plain
access itself, this access chooses the connective inside it. -/
def objectPosition (member : Node) (object : Value) : Position :=
  { Position.within member with
    isStatic := object.isStatic
    connective := object.plainAccess?.map fun pair => Connective.between pair.1 pair.2 }

def member (emit : Emitter) (options : Options) (node : Node) (position : Position) :
    Rendering := do
  let object ← required node "object"
  let property ← required node "property"
  match ← Emission.ofShape (propertySubstitute? options node position) with
  | some substitute => return .plain (← substituted emit node substitute)
  | none => do
      let objectText ← shown emit object (objectPosition node object)
      if node.flag "computed" then
        let index ← shown emit property (.within node)
        return .plain (objectText ++ "[" ++ index ++ "]")
      else
        let connective := position.connective.getD (Connective.between object property)
        let name ← shown emit property
          { Position.within node with isMemberProperty := true, isStatic := property.isStatic }
        return .plain (objectText ++ connective.text ++ name)

end PhpRendering.Rule
