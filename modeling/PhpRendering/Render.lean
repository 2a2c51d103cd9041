import PhpRendering.Construct
import PhpRendering.Rule.Access
import PhpRendering.Rule.Function
import PhpRendering.Rule.Module
import PhpRendering.Rule.Statement
import PhpRendering.Tree.Height

/-!
# Rendering of trees

A node is rendered by the rule of its construct. At the boundary of the node a
missing field becomes a diagnostic and an empty text, and the terminator that
the fragment owes is added. Rendering never stops on a diagnostic; it stops on a
crash only.
-/

namespace PhpRendering

def Construct.rule (emit : Emitter) (options : Options) (node : Node) (position : Position) :
    Construct → Rendering
  | .statementList => Rule.statementList emit node
  | .variableDeclaration => Rule.variableDeclaration emit node
  | .variableDeclarator => Rule.variableDeclarator emit node
  | .identifier => Rule.identifier node position
  | .punctuator => Rule.punctuator node
  | .literal => Rule.literal node
  | .selfReference => Rule.selfReference
  | .binary => Rule.binary emit node
  | .update => Rule.update emit node
  | .expressionStatement => Rule.expressionStatement emit node
  | .call => Rule.call emit options node position
  | .construction => Rule.construction emit node
  | .member => Rule.member emit options node position
  | .functionDeclaration => Rule.functionDeclaration emit node
  | .functionExpression => Rule.functionExpression emit node position
  | .classDeclaration => Rule.classDeclaration emit node
  | .methodDefinition => Rule.methodDefinition emit options node position
  | .objectLiteral => Rule.objectLiteral emit node
  | .arrayLiteral => Rule.arrayLiteral emit node
  | .property => Rule.property emit node
  | .returnStatement => Rule.returnStatement emit node
  | .ifStatement => Rule.ifStatement emit node
  | .forStatement => Rule.forStatement emit node
  | .forInStatement => Rule.forInStatement emit node
  | .switchStatement => Rule.switchStatement emit node
  | .switchCase => Rule.switchCase emit node
  | .breakStatement => Rule.breakStatement
  | .moduleDeclaration => Rule.moduleDeclaration emit node
  | .exportDeclaration => Rule.exportDeclaration emit node
  | .importDeclaration => Rule.importDeclaration emit node
  | .importSpecifier => Rule.importSpecifier node position

/-- The outcome of a node from that of its rule. A missing field leaves the node out
and is reported; a crash goes on to the parent. -/
def atBoundary {α β : Type} (nothing : β) (finish : α → Except Crash β)
    (rendering : Emission Fault α) : Emission Crash β :=
  match rendering.outcome with
  | .ok fragment => ⟨rendering.events, finish fragment⟩
  | .error (.missing missing) =>
      ⟨rendering.events ++ [.reported (Diagnostic.ofMissing missing)], .ok nothing⟩
  | .error (.crash crash) => ⟨rendering.events, .error crash⟩

/-- A node rendered with a given emitter for what lies below it. A kind without a
rule is reported and leaves no text. -/
def emitNode (emit : Emitter) (options : Options) (node : Node) (position : Position) :
    Emission Crash Output :=
  match Construct.ofKind? node.kind with
  | none => do
      Emission.report (Diagnostic.unsupported node "")
      return .text ""
  | some construct =>
      atBoundary (.text "") Fragment.finished (construct.rule emit options node position)

/-- The output of a value with a bound on the nesting of renderings. -/
def emitWithin (options : Options) : Nat → Emitter
  | 0, .node _, _ => .fail .tooDeep
  | depth + 1, .node node, position => emitNode (emitWithin options depth) options node position
  | _, _, _ => .fail .notANode

def renderWithin (options : Options) (depth : Nat) : Renderer := fun value position => do
  return (← emitWithin options depth value position).shown

/-- A value rendered at a position. Copies and assignments made on the way add at
most two renderings per level of the tree. -/
def render (options : Options) : Renderer := fun value position =>
  renderWithin options (3 * value.height) value position

end PhpRendering
