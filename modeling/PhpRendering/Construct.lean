/-!
# Constructs

The constructs of the source that have a rendering, and the kinds of nodes that
stand for each of them. Kinds that differ in name only share a construct.
-/

namespace PhpRendering

/-- A construct of the source with a rendering. -/
inductive Construct where
  | statementList
  | variableDeclaration
  | variableDeclarator
  | identifier
  | punctuator
  | literal
  | selfReference
  | binary
  | update
  | expressionStatement
  | call
  | construction
  | member
  | functionDeclaration
  | functionExpression
  | classDeclaration
  | methodDefinition
  | objectLiteral
  | arrayLiteral
  | property
  | returnStatement
  | ifStatement
  | forStatement
  | forInStatement
  | switchStatement
  | switchCase
  | breakStatement
  | moduleDeclaration
  | exportDeclaration
  | importDeclaration
  | importSpecifier
deriving DecidableEq, Repr

namespace Construct

/-- The kinds of nodes with a rendering, in alphabetical order. -/
def byKind : List (String × Construct) :=
  [("ArrayExpression", arrayLiteral),
   ("AssignmentExpression", binary),
   ("BinaryExpression", binary),
   ("BlockStatement", statementList),
   ("BreakStatement", breakStatement),
   ("CallExpression", call),
   ("ClassBody", statementList),
   ("ClassDeclaration", classDeclaration),
   ("ExportDeclaration", exportDeclaration),
   ("ExportDefaultDeclaration", exportDeclaration),
   ("ExportNamedDeclaration", exportDeclaration),
   ("ExpressionStatement", expressionStatement),
   ("ForInStatement", forInStatement),
   ("ForStatement", forStatement),
   ("FunctionDeclaration", functionDeclaration),
   ("FunctionExpression", functionExpression),
   ("Identifier", identifier),
   ("IfStatement", ifStatement),
   ("ImportDeclaration", importDeclaration),
   ("ImportSpecifier", importSpecifier),
   ("Literal", literal),
   ("LogicalExpression", binary),
   ("MemberExpression", member),
   ("MethodDefinition", methodDefinition),
   ("ModuleDeclaration", moduleDeclaration),
   ("NewExpression", construction),
   ("ObjectExpression", objectLiteral),
   ("Program", statementList),
   ("Property", property),
   ("Punctuator", punctuator),
   ("ReturnStatement", returnStatement),
   ("SwitchCase", switchCase),
   ("SwitchStatement", switchStatement),
   ("ThisExpression", selfReference),
   ("UpdateExpression", update),
   ("VariableDeclaration", variableDeclaration),
   ("VariableDeclarator", variableDeclarator)]

def ofKind? (kind : String) : Option Construct :=
  byKind.lookup kind

def supportedKinds : List String :=
  byKind.map Prod.fst

end Construct

end PhpRendering
