import PhpRendering.Tree.Basic

/-!
# Shown trees

How the values of a tree stand in a message. A node is shown by its kind alone.
-/

namespace PhpRendering

mutual

def Value.shownInside : Value → String
  | .scalar value => value.shownInside
  | .list items => "[" ++ Text.separatedBy ", " (shownItems items) ++ "]"
  | .record members => "\x7b" ++ Text.separatedBy ", " (shownMembers members) ++ "\x7d"
  | .foreign _ => "<object>"
  | .node node => "Node(" ++ Text.displayed node.kind ++ ")"

def shownItems : List Value → List String
  | [] => []
  | item :: rest => item.shownInside :: shownItems rest

def shownMembers : List (String × Value) → List String
  | [] => []
  | (name, value) :: rest =>
      (Text.displayed name ++ ": " ++ value.shownInside) :: shownMembers rest

end

def Value.shown : Value → String
  | .scalar value => value.shown
  | other => other.shownInside

def Node.shown (node : Node) : String :=
  "Node(" ++ Text.displayed node.kind ++ ")"

end PhpRendering
