import PhpRendering.Tree.Basic

/-!
# Containment in trees

A node contains itself and the descendants that are reached through its fields.
A list counts with the nodes that are its items; plain data and lists inside
lists are not searched.
-/

namespace PhpRendering

mutual

def Value.leadsTo (target : Origin) : Value → Bool
  | .node node => node.contains target
  | .list items => itemsLeadTo target items
  | _ => false

def Node.contains (target : Origin) : Node → Bool
  | ⟨origin, _, fields, _⟩ => origin == target || membersLeadTo target fields

def itemsLeadTo (target : Origin) : List Value → Bool
  | [] => false
  | .node node :: rest => node.contains target || itemsLeadTo target rest
  | _ :: rest => itemsLeadTo target rest

def membersLeadTo (target : Origin) : List (String × Value) → Bool
  | [] => false
  | (_, value) :: rest => value.leadsTo target || membersLeadTo target rest

end

end PhpRendering
