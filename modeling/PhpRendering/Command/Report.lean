import PhpRendering.Command.Arguments
import PhpRendering.Command.Path
import PhpRendering.Session
import PhpRendering.Tree.Conversion

/-!
# Reports of the command

What the command says and writes for its arguments, given what the parser makes
of the input. The text goes to the output file or to the standard output, all
messages to the standard error. They break off at a function with a parameter
whose name is no text.
-/

namespace PhpRendering.Command

structure Parsed where
  form : TreeForm
  tree : Json

inductive Input where
  | missing
  | unreadable
  | rejected (message : String)
  | parsed (program : Parsed)

/-- What the command leaves behind when its output can be written. -/
structure Report where
  /-- the exit code, unless the messages break off -/
  exitCode : Except Crash Nat
  standardOutput : String := ""
  standardError : String := ""
  /-- the file to write, with its text -/
  file : Option (Path × String) := none

def diagnosticsExitCode : Nat := 2

def lines (messages : List String) : String :=
  Text.joined (messages.map fun message => message ++ "\n")

def parameterName (symbol : Symbol) : Except Crash String :=
  match symbol.name.text? with
  | some text => .ok text
  | none => .error .notAName

def parameterNames (scope : Scope) : Except Crash (List String) :=
  (scope.symbols.filter Symbol.isParameter).mapM parameterName

def scopeLine (record : ScopeRecord) (id : ScopeId) : Except Crash String := do
  let scope := record.scope id
  let name := if scope.name.isTruthy then scope.name.shown else "<anonymous>"
  let parameters ← parameterNames scope
  return Text.joined (List.replicate (record.depth id) "  ") ++ name
    ++ "(" ++ Text.separatedBy ", " parameters ++ ")"

/-- Messages up to the first one that cannot be made, and whether all of them were. -/
def messagesUntilCrash : List (Except Crash String) → List String × Except Crash Unit
  | [] => ([], .ok ())
  | .error crash :: _ => ([], .error crash)
  | .ok message :: rest =>
      let (messages, outcome) := messagesUntilCrash rest
      (message :: messages, outcome)

def scopeLines : Recorder → List (Except Crash String)
  | .scoping record => .ok "=== Function Scopes ===" :: record.functions.map (scopeLine record)
  | _ => [.ok "=== Function Scopes ==="]

def messages (arguments : Arguments) (session : Session) : List (Except Crash String) :=
  let generated :=
    match arguments.output with
    | some output => [.ok ("Generated: " ++ (Path.ofText output).text)]
    | none => []
  let diagnostics :=
    if !session.log.isEmpty || arguments.verbose then [.ok (summary session.log)] else []
  let scopes := if arguments.verbose then scopeLines session.recorder else []
  generated ++ diagnostics ++ scopes

def failed (message : String) : Report :=
  { exitCode := .ok 1, standardError := lines [message] }

def finished (arguments : Arguments) (session : Session) (text : String) : Report :=
  let (said, outcome) := messagesUntilCrash (messages arguments session)
  let code := if arguments.strict && !session.log.isEmpty then diagnosticsExitCode else 0
  { exitCode := outcome.map fun () => code
    standardOutput := if arguments.output.isNone then text else ""
    standardError := lines said
    file := arguments.output.map fun output => (Path.ofText output, text) }

def report (arguments : Arguments) (input : Input) : Report :=
  let shown := (Path.ofText arguments.input).text
  match input with
  | .missing => failed ("Error: Input file not found: " ++ shown)
  | .unreadable => failed ("Error transpiling " ++ shown ++ ":")
  | .rejected message => failed ("Error: Cannot parse " ++ shown ++ ": " ++ message)
  | .parsed program =>
      let start : Session := {}
      match start.generate (Value.ofJson program.form 0 program.tree) program.tree.typeName with
      | (session, .ok text) => finished arguments session text
      | (_, .error _) => failed ("Error transpiling " ++ shown ++ ":")

end PhpRendering.Command
