import PhpRendering.Tree.Basic

/-!
# Names of nodes

A node is named by its field `name`, or by its field `value` when it has no
name. A name that starts with an uppercase letter is taken for a class or a
namespace: without type information, the casing is all there is to go by.
-/

namespace PhpRendering

/-- The name of a node, empty when it has none or its name is no text. -/
def Node.name (node : Node) : String :=
  let named := if (node.field "name").isNull then node.field "value" else node.field "name"
  named.text?.getD ""

def Value.name : Value → String
  | .node bearer => bearer.name
  | _ => ""

/-- Whether a name is that of a class or namespace: it starts with an uppercase
letter from A to Z. -/
def isStaticName (name : String) : Bool :=
  match name.toList with
  | [] => false
  | first :: _ => 'A' ≤ first && first ≤ 'Z'

/-- Whether a value is named like a class or namespace. -/
def Value.isStatic (value : Value) : Bool :=
  isStaticName value.name

end PhpRendering
