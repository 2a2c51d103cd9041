import PhpRendering.Proofs.Fields
import PhpRendering.Proofs.RuleAgenda

/-!
# Readings of fields

A part of a construct reads some fields as nodes, as lists of nodes, or as texts. A
node is readable when every field that is read while it is rendered has the shape
that is read there or holds nothing. Kinds without a rule and missing fields are no
obstacle. Whatever a rule has rendered comes from a field that it reads.
-/

namespace PhpRendering

/-- What a field may hold besides nothing. -/
inductive Shape where
  | anything
  | text
  | node
  | nodes
  /-- a list of nodes and holes -/
  | holedNodes
  /-- one node, or a list of nodes and holes -/
  | nodeOrNodes
deriving DecidableEq, Repr

/-- What is done with the nodes of a field. -/
inductive Use where
  /-- nothing is read of them -/
  | unread
  /-- they are rendered -/
  | rendered
  /-- their name is read -/
  | named
  /-- the spelling of a literal among them is read -/
  | spelled
  /-- they are rendered, or only the object is when they are member accesses -/
  | called
  /-- only their object is rendered -/
  | receiver
  /-- they are rendered as functions, whatever their kind -/
  | function
  /-- they are rendered as parameters, and the names that they bind are read -/
  | parameter
  /-- they are rendered, and the names that they bind are read -/
  | target
deriving DecidableEq, Repr

structure Reading where
  field : String
  shape : Shape
  use : Use
deriving DecidableEq, Repr

def Shape.Admits : Shape → Value → Prop
  | .anything, _ => True
  | .text, value => value = .null ∨ ∃ letters, value = .text letters
  | .node, value => value = .null ∨ ∃ child, value = .node child
  | .nodes, value =>
      value = .null ∨ ∃ items, value = .list items ∧ ∀ item ∈ items, ∃ child, item = .node child
  | .holedNodes, value =>
      value = .null ∨ ∃ items, value = .list items ∧
        ∀ item ∈ items, item = .null ∨ ∃ child, item = .node child
  | .nodeOrNodes, value =>
      value = .null ∨ (∃ child, value = .node child) ∨ ∃ items, value = .list items ∧
        ∀ item ∈ items, item = .null ∨ ∃ child, item = .node child

def Part.readings : Part → List Reading
  | .present _ => []
  | .mark field => [⟨field, .text, .unread⟩, ⟨"argument", .anything, .rendered⟩]
  | .spelling => [⟨"raw", .text, .unread⟩]
  | .child field => [⟨field, .node, .rendered⟩]
  | .text field => [⟨field, .node, .rendered⟩]
  | .side field => [⟨field, .node, .rendered⟩]
  | .optionalChild field => [⟨field, .node, .rendered⟩]
  | .optionalText field => [⟨field, .node, .rendered⟩]
  | .children field => [⟨field, .nodes, .rendered⟩]
  | .optionalChildren field => [⟨field, .nodes, .rendered⟩]
  | .clauses field => [⟨field, .nodes, .rendered⟩]
  | .elements field => [⟨field, .holedNodes, .rendered⟩]
  | .statements field => [⟨field, .holedNodes, .rendered⟩]
  | .optionalStatements field => [⟨field, .holedNodes, .rendered⟩]
  | .name => [⟨"name", .text, .unread⟩]
  | .call =>
      [⟨"callee", .node, .called⟩, ⟨"arguments", .nodes, .rendered⟩, ⟨"object", .node, .rendered⟩]
  | .construction =>
      [⟨"callee", .node, .called⟩, ⟨"arguments", .nodes, .rendered⟩, ⟨"object", .node, .rendered⟩]
  | .access =>
      [⟨"object", .node, .rendered⟩, ⟨"property", .node, .rendered⟩,
        ⟨"callee", .node, .receiver⟩, ⟨"arguments", .nodes, .rendered⟩]
  | .declaration =>
      [⟨"params", .nodes, .parameter⟩, ⟨"defaults", .holedNodes, .rendered⟩,
        ⟨"body", .node, .rendered⟩]
  | .parameters => [⟨"params", .nodes, .parameter⟩, ⟨"defaults", .holedNodes, .rendered⟩]
  | .parameterTexts => [⟨"params", .nodes, .parameter⟩]
  | .entry => [⟨"id", .anything, .named⟩]
  | .superclass => [⟨"superClass", .node, .rendered⟩]
  | .method => [⟨"value", .node, .function⟩]
  | .entryValue => [⟨"key", .node, .spelled⟩, ⟨"value", .node, .rendered⟩]
  | .alternate => [⟨"alternate", .node, .rendered⟩]
  | .loopStart => [⟨"init", .node, .rendered⟩]
  | .moduleBody => [⟨"body", .nodeOrNodes, .rendered⟩]
  | .exported => [⟨"declaration", .node, .rendered⟩, ⟨"specifiers", .holedNodes, .rendered⟩]
  | .importedModule => []
  | .importedBinding => []

/-- How a node is read: as a node of a construct, or in part. -/
inductive Role where
  | construct (construct : Construct)
  /-- for its name -/
  | bearer
  /-- for its object -/
  | receiver
  /-- for the two sides of a parameter with a default -/
  | pattern
  /-- for the name bound by a pattern that stands inside another one -/
  | innerPattern
deriving DecidableEq, Repr

def Role.readings : Role → List Reading
  | .construct known => known.parts.flatMap Part.readings
  | .bearer => [⟨"name", .text, .unread⟩]
  | .receiver => [⟨"object", .node, .rendered⟩]
  | .pattern => [⟨"left", .node, .target⟩, ⟨"right", .node, .rendered⟩]
  | .innerPattern => [⟨"left", .node, .target⟩]

def Role.ofKind (kind : String) : List Role :=
  (Construct.ofKind? kind).toList.map .construct

def Use.roles (child : Node) : Use → List Role
  | .unread => []
  | .rendered => Role.ofKind child.kind
  | .named => [.bearer]
  | .spelled => if child.kind = "Literal" then [.construct .literal] else []
  | .called =>
      Role.ofKind child.kind ++ if child.kind = "MemberExpression" then [.receiver] else []
  | .receiver => [.receiver]
  | .function => [.construct .functionExpression]
  | .parameter =>
      if child.kind = "AssignmentPattern" then [.pattern] else Role.ofKind child.kind
  | .target =>
      Role.ofKind child.kind ++ if child.kind = "AssignmentPattern" then [.innerPattern] else []

/-- A node with which a role meets no impossible shape: each field that is read holds
nothing or what is read there, down the tree. -/
inductive ReadableAs : Role → Node → Prop where
  | intro {role : Role} {node : Node}
      (admits : ∀ reading ∈ role.readings, reading.shape.Admits (node.field reading.field))
      (below : ∀ reading ∈ role.readings, ∀ child ∈ Node.nodesOf (node.field reading.field),
        ∀ inner ∈ reading.use.roles child, ReadableAs inner child) :
      ReadableAs role node

/-- A node whose rendering meets no impossible shape. -/
def Node.Readable (node : Node) : Prop :=
  ∀ role ∈ Role.ofKind node.kind, ReadableAs role node

theorem Node.readable_iff {node : Node} :
    node.Readable ↔ ∀ construct, Construct.ofKind? node.kind = some construct →
      ReadableAs (.construct construct) node := by
  unfold Node.Readable Role.ofKind
  cases Construct.ofKind? node.kind <;> simp

end PhpRendering
