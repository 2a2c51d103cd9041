import PhpRendering.Tree.Name

/-!
# Connectives of member access

The separator between an object and a member follows from the casing of their
names: the namespace separator between two static names, static access when one
of the two is static, instance access otherwise. A node without a name is never
static.
-/

namespace PhpRendering

/-- A separator between an object and a member. -/
inductive Connective where
  | namespaceMember
  | staticMember
  | instanceMember
deriving DecidableEq, Repr

namespace Connective

def text : Connective → String
  | .namespaceMember => "\\"
  | .staticMember => "::"
  | .instanceMember => "->"

/-- The connective for two static flags. A static member of an object that is not
static is static access too. -/
def classify (objectIsStatic propertyIsStatic : Bool) : Connective :=
  if objectIsStatic && propertyIsStatic then .namespaceMember
  else if objectIsStatic || propertyIsStatic then .staticMember
  else .instanceMember

def between (object property : Value) : Connective :=
  classify object.isStatic property.isStatic

end Connective

def Value.plainAccess? : Value → Option (Value × Value)
  | .node access =>
      if access.kind = "MemberExpression" ∧ !access.flag "computed" then do
        let object ← access.field? "object"
        let property ← access.field? "property"
        return (object, property)
      else none
  | _ => none

/-- The pair by which a member access is classified. When its object is a plain
access itself, one level is collapsed: `A.B.c` is classified by `A` and `B`. -/
def Node.collapsedPair (member : Node) : Except Missing (Value × Value) := do
  let object ← member.require "object"
  match object.plainAccess? with
  | some pair => return pair
  | none => return (object, ← member.require "property")

/-- Whether the classification of a member access collapses a level. -/
def Node.isCollapsed (member : Node) : Bool :=
  (member.field "object").plainAccess?.isSome

def Node.chainConnective (member : Node) : Except Missing Connective := do
  let (object, property) ← member.collapsedPair
  return Connective.between object property

end PhpRendering
