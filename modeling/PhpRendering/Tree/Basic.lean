import PhpRendering.Json.Basic

/-!
# Syntax trees

A node has a kind, named fields and the location that the parser recorded. A
field holds any value: another node, a list, a scalar, or plain data. A field
that is absent and a field that holds nothing are the same thing.

Nodes are told apart by where they were read, never by what they hold, and so are
foreign values.
-/

namespace PhpRendering

/-- One step down from a value: into a member, or to an item of a list. -/
inductive Step where
  | member (name : String)
  | item (index : Nat)
deriving DecidableEq, Repr

/-- Where a value was read: the number of the tree and the steps from its root,
the last step first. -/
structure Origin where
  tree : Nat
  steps : List Step
deriving DecidableEq, Repr

def Origin.down (origin : Origin) (step : Step) : Origin :=
  { origin with steps := step :: origin.steps }

def isReservedName (name : String) : Bool :=
  name.toList.head? == some '_'

/-- The location data of a node: the members of a JSON object. -/
abbrev Location := List (String × Json)

mutual

/-- What a field holds. A foreign value is an object of the parser that is not a
node; nothing in it is read. -/
inductive Value where
  | scalar (value : Scalar)
  | list (items : List Value)
  | record (members : List (String × Value))
  | foreign (origin : Origin)
  | node (node : Node)

structure Node where
  origin : Origin
  kind : String
  fields : List (String × Value)
  location : Option Location

end

instance : Inhabited Value := ⟨.scalar .null⟩

/-- Why a rule cannot go on with a value of an impossible shape. -/
inductive Crash where
  /-- something else stands where a node, or the key of an entry, is used -/
  | notANode
  /-- a value without items stands where a list is used -/
  | notAList
  /-- a value that is no name, text or summand stands where one is used -/
  | notAName
  /-- a record is asked for a position -/
  | noSuchPosition
  /-- the tree is deeper than the rendering was told -/
  | tooDeep
deriving DecidableEq, Repr

/-- A field that is required of a node and that it lacks, with the kind and the
line of the node. -/
structure Missing where
  kind : String
  line : Json
  field : String

def Missing.message (missing : Missing) : String :=
  missing.kind ++ " node is missing required field '" ++ missing.field ++ "'"

namespace Value

abbrev null : Value := .scalar .null

abbrev text (value : String) : Value := .scalar (.text value)

def isNull : Value → Bool
  | .scalar .null => true
  | _ => false

/-- Whether a value counts as a set flag; every node does. -/
def isTruthy : Value → Bool
  | .scalar value => value.isTruthy
  | .list items => !items.isEmpty
  | .record members => !members.isEmpty
  | .foreign _ => true
  | .node _ => true

def node? : Value → Option Node
  | .node found => some found
  | _ => none

def text? : Value → Option String
  | .scalar (.text value) => some value
  | _ => none

def asNode : Value → Except Crash Node
  | .node found => .ok found
  | _ => .error .notANode

def letters (text : String) : List Value :=
  text.toList.map fun letter => .text (String.singleton letter)

/-- The items of a value used as a list. A text has its characters and a record
its member names as items. -/
def items : Value → Except Crash (List Value)
  | .list items => .ok items
  | .scalar (.text value) => .ok (letters value)
  | .record members => .ok (members.map fun entry => .text entry.1)
  | _ => .error .notAList

def itemAt (index : Nat) : Value → Except Crash Value
  | .record members => if index < members.length then .error .noSuchPosition else .ok .null
  | value => do return (← value.items)[index]?.getD .null

end Value

namespace Node

def field (node : Node) (name : String) : Value :=
  (node.fields.lookup name).getD .null

def field? (node : Node) (name : String) : Option Value :=
  let value := node.field name
  if value.isNull then none else some value

def has (node : Node) (name : String) : Bool :=
  (node.field? name).isSome

def line (node : Node) : Json :=
  match node.location with
  | none => .null
  | some members =>
      match members.lookup "start" with
      | some (.object start) => (start.lookup "line").getD .null
      | _ => .null

def missing (node : Node) (name : String) : Missing :=
  ⟨node.kind, node.line, name⟩

def require (node : Node) (name : String) : Except Missing Value :=
  match node.field? name with
  | some value => .ok value
  | none => .error (node.missing name)

def flag (node : Node) (name : String) : Bool :=
  (node.field name).isTruthy

def optionalItems (node : Node) (name : String) : Except Crash (List Value) :=
  if node.flag name then (node.field name).items else .ok []

def setField (name : String) (value : Value) : List (String × Value) → List (String × Value)
  | [] => [(name, value)]
  | (known, old) :: rest =>
      if known == name then (name, value) :: rest else (known, old) :: setField name value rest

/-- A copy of a node with another kind and some fields overridden. The empty kind
leaves the kind as it is. -/
def replace (node : Node) (kind : String) (overrides : List (String × Value)) : Node :=
  { node with
    kind := if kind = "" then node.kind else kind
    fields := overrides.foldl (fun fields entry => setField entry.1 entry.2 fields) node.fields }

def nodesOf : Value → List Node
  | .node node => [node]
  | .list items => items.filterMap Value.node?
  | _ => []

def children (node : Node) : List (String × Node) :=
  node.fields.flatMap fun entry => (nodesOf entry.2).map fun child => (entry.1, child)

end Node

end PhpRendering
