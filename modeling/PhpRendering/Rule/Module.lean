import PhpRendering.Naming
import PhpRendering.Rule.Fragment

/-!
# Rules of modules

A module becomes a namespace, an import one use statement per binding, and an
export the declaration that it exports.
-/

namespace PhpRendering.Rule

def moduleBody (emit : Emitter) (node : Node) : Value → Emission Fault String
  | .list items => sequence emit node (.list items)
  | body => shown emit body (.within node)

def moduleDeclaration (emit : Emitter) (node : Node) : Rendering := do
  let id ← required node "id"
  let body ← required node "body"
  let text ← moduleBody emit node body
  return .plain ("namespace " ++ Naming.moduleNamespace id.name ++ ";\n" ++ text)

/-- Whether the nodes of a kind are declarations, which its name tells. -/
def isDeclarationKind (kind : String) : Bool :=
  "Declaration".toList.isSuffixOf kind.toList

/-- An export. An exported expression is a statement of its own. -/
def exportDeclaration (emit : Emitter) (node : Node) : Rendering := do
  match node.field? "declaration" with
  | none => return .plain (← sequence emit node (← required node "specifiers"))
  | some declaration => do
      let output ← child emit declaration (.within node)
      let exported ← Emission.ofShape declaration.asNode
      return ⟨output, !isDeclarationKind exported.kind⟩

def importDeclaration (emit : Emitter) (node : Node) : Rendering := do
  let specifiers ← Emission.ofShape (node.optionalItems "specifiers")
  return .plain (Text.joined (← texts (← children emit (.within node) specifiers)))

def importedModule (node : Node) : ImportSource → Emission Fault String
  | .noParent => .fail (.missing (node.missing "source"))
  | .unnamed missing => .fail (.missing missing)
  | .unusable => .fail (.crash .notANode)
  | .named moduleName => return moduleName

/-- What an imported binding is called here, if the import says so: a node in the
field `name`, or else the field `local`. -/
def localBinding? (node : Node) : Option Value :=
  match node.field "name" with
  | .node binding => some (.node binding)
  | _ => node.field? "local"

/-- The part of a use statement that gives a binding another name. -/
def aliasClause (name : String) : Option Value → String
  | some binding => if binding.name = name then "" else " as " ++ binding.name
  | none => ""

def importedBinding (node : Node) : Emission Fault Value :=
  match node.field? "id" with
  | some id => return id
  | none => required node "imported"

def importSpecifier (node : Node) (position : Position) : Rendering := do
  let moduleName ← importedModule node position.importSource
  let imported ← importedBinding node
  let use := "use " ++ Naming.qualifiedImport moduleName imported.name
  return .plain (use ++ aliasClause imported.name (localBinding? node) ++ terminator)

end PhpRendering.Rule
