import PhpRendering.Connective
import PhpRendering.Tree.Occurrence

/-!
# Positions

What a rule may know about the place of a node in its parent: whether the parent
is an expression statement, whether the node is written to, the module that an
enclosing import names, and the markers that the rule of the parent sets. What
stands as the parent may be no node; then a rule that looks at the parent fails.
-/

namespace PhpRendering

inductive ImportSource where
  /-- there is no parent -/
  | noParent
  /-- the parent names no module -/
  | unnamed (missing : Missing)
  /-- the parent is no node -/
  | unusable
  | named (moduleName : String)

/-- The place of a node in its parent. -/
structure Position where
  parentIsUsable : Bool := true
  inStatement : Bool := false
  isTarget : Bool := false
  importSource : ImportSource := .noParent
  isCallee : Bool := false
  isMemberProperty : Bool := false
  isStatic : Bool := false
  isLast : Bool := false
  connective : Option Connective := none

def Node.importSource (parent : Node) : ImportSource :=
  match parent.require "source" with
  | .ok source => .named source.name
  | .error missing => .unnamed missing

/-- The position of a child that is not the left side of its parent. -/
def Position.within (parent : Node) : Position :=
  { inStatement := parent.kind == "ExpressionStatement"
    isTarget := parent.kind == "UpdateExpression"
    importSource := parent.importSource }

/-- The position of the left side of a parent; an assignment writes to it. -/
def Position.leftOf (parent : Node) : Position :=
  { Position.within parent with
    isTarget := parent.kind == "UpdateExpression" || parent.kind == "AssignmentExpression" }

def Position.withoutNode : Position :=
  { parentIsUsable := false, importSource := .unusable }

/-- The position of a value below a parent. Whatever is the left side of the parent is
taken for it, also where it stands on the other side. -/
def Position.of (parent : Node) (child : Occurrence) : Position :=
  if (parent.occurrence "left").isSame child then .leftOf parent else .within parent

def Position.below (parent : Value) (child : Occurrence) : Position :=
  match parent with
  | .node parent => .of parent child
  | .scalar .null => {}
  | _ => .withoutNode

def Position.checkParent (position : Position) : Except Crash Unit :=
  if position.parentIsUsable then .ok () else .error .notANode

end PhpRendering
