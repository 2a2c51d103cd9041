import PhpRendering.Tree.Containment
import PhpRendering.Tree.Name
import PhpRendering.Tree.Occurrence
import PhpRendering.Tree.Shown

/-!
# Scopes

A scope belongs to the program or to one function. Its symbols are the
parameters of the function and the functions named in it, in the order of their
definition. The name of a scope or a symbol is the value that its identifier
carries, a text in a well-formed tree.
-/

namespace PhpRendering

/-- The number of a scope; the scope of the program has the number zero. -/
abbrev ScopeId := Nat

/-- A name defined in a scope. -/
structure Symbol where
  name : Value
  isGlobal : Bool := false
  isFunction : Bool := false
  /-- the position of the parameter, negative when the symbol is none -/
  parameter : Int := -1

def Symbol.isParameter (symbol : Symbol) : Bool :=
  0 ≤ symbol.parameter

def Symbol.shown (symbol : Symbol) (scope : ScopeId) : String :=
  "Symbol(name=" ++ symbol.name.shownInside ++ ", scope_id=" ++ toString scope ++
    ", is_global=" ++ (Scalar.bool symbol.isGlobal).shown ++
    ", is_function=" ++ (Scalar.bool symbol.isFunction).shown ++ ")"

structure Scope where
  parent : Option ScopeId
  name : Value
  function : Option Node
  symbols : List Symbol

/-! ## Names -/

/-- Whether two values are the same name. Equal scalars are; nodes and foreign
values are the same name only as themselves. -/
def Value.isSameName : Value → Value → Bool
  | .scalar first, .scalar second => first.isEqual second
  | .node first, .node second => first.origin == second.origin
  | .foreign first, .foreign second => first == second
  | _, _ => false

/-- The name that a symbol can have. A list or a record cannot be one. -/
def Value.asName : Value → Except Crash Value
  | .list _ => .error .notAName
  | .record _ => .error .notAName
  | name => .ok name

def Value.symbolName? (value : Value) : Except Crash (Option Value) :=
  if value.isTruthy then value.asName.map some else .ok none

namespace Scope

def has (scope : Scope) (name : Value) : Bool :=
  scope.symbols.any fun symbol => symbol.name.isSameName name

/-- Whether a value lies inside the body of the function that owns the scope. The
scope of the program holds everything, a function without a body nothing. A body
that is no node holds only itself, and cannot be searched for another value. -/
def holds (scope : Scope) (target : Occurrence) : Except Crash Bool :=
  match scope.function with
  | none => .ok true
  | some function =>
      let body := function.occurrence "body"
      if body.value.isNull then .ok false
      else if body.isSame target then .ok true
      else
        match body.value, target.value with
        | .node root, .node sought => .ok (root.contains sought.origin)
        | .node _, _ => .ok false
        | _, _ => .error .notANode

/-- Whether the body of a function lies inside the body of the function that owns
the scope. -/
def holdsBodyOf (scope : Scope) (inner : Node) : Except Crash Bool :=
  scope.holds (inner.occurrence "body")

end Scope

/-! ## Names that functions bring -/

mutual

/-- What names the variable that a parameter binds: the name of an identifier, or
that of the left side of a pattern. -/
def Node.boundName : Node → Value
  | ⟨_, kind, fields, _⟩ =>
      if kind = "Identifier" then (fields.lookup "name").getD .null
      else if kind = "AssignmentPattern" then leftBoundName fields
      else .null

/-- What names the variable bound by the left side among some fields. -/
def leftBoundName : List (String × Value) → Value
  | [] => .null
  | (name, .node left) :: rest => if name = "left" then left.boundName else leftBoundName rest
  | (name, _) :: rest => if name = "left" then .null else leftBoundName rest

end

/-- The name under which a function is entered: the name of its identifier. -/
def Node.functionName? (function : Node) : Except Crash (Option Value) :=
  match function.field "id" with
  | .node id => (id.field "name").symbolName?
  | _ => .ok none

end PhpRendering
