import PhpRendering.Tree.Basic

/-!
# Attributes of nodes

Under one name a reader of a tree finds either what every node has, its kind, its
line, its location, all its fields and its operations, or a field. Names that start
with an underscore are reserved. Nodes never change; a changed node is a copy.
-/

namespace PhpRendering

/-- What a node has under a name. -/
inductive Attribute where
  | kind (kind : String)
  | line (line : Json)
  | location (location : Option Location)
  | fields (fields : List (String × Value))
  | operation
  | field (value : Value)

def operationNames : List String :=
  ["get", "has", "require", "replace", "children"]

def Node.attribute? (node : Node) (name : String) : Option Attribute :=
  if isReservedName name then none
  else
    match name with
    | "kind" => some (.kind node.kind)
    | "line" => some (.line node.line)
    | "loc" => some (.location node.location)
    | "fields" => some (.fields node.fields)
    | _ => if operationNames.contains name then some .operation else some (.field (node.field name))

def Node.immutableMessage (node : Node) : String :=
  node.kind ++ " nodes are immutable; use replace()"

end PhpRendering
