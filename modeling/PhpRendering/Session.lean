import PhpRendering.Render
import PhpRendering.Scope.Record

/-!
# Sessions

A session carries the options, the log of diagnostics and the recorder of
entered functions through any number of renderings. The recorder follows the
events of a rendering and never changes its text; if it fails, the rendering
fails at that event.
-/

namespace PhpRendering

/-- What is done with the functions that are entered. -/
inductive Recorder where
  | ignoring
  | listing (entered : List Node)
  | scoping (record : ScopeRecord)

def Recorder.enter (recorder : Recorder) (function : Node) : Recorder × Except Crash Unit :=
  match recorder with
  | .ignoring => (.ignoring, .ok ())
  | .listing entered => (.listing (entered ++ [function]), .ok ())
  | .scoping record =>
      let (record, outcome) := record.enter function
      (.scoping record, outcome)

structure Session where
  options : Options := {}
  log : List Diagnostic := []
  recorder : Recorder := .scoping ScopeRecord.initial

/-- Why there is no file for a tree. -/
inductive Failure where
  | notATree (found : String)
  | notAProgram (kind : String)
  | crash (crash : Crash)

def Failure.message? : Failure → Option String
  | notATree found => some ("Expected an ESTree node, got " ++ found)
  | notAProgram kind => some ("Expected a Program node, got " ++ kind)
  | crash _ => none

namespace Session

def observe (session : Session) : Event → Session × Except Crash Unit
  | .reported diagnostic =>
      ({ session with log := session.log ++ [diagnostic] }, .ok ())
  | .entered function =>
      let (recorder, outcome) := session.recorder.enter function
      ({ session with recorder := recorder }, outcome)

/-- The session after some events, up to the first one that fails. -/
def observeAll (session : Session) : List Event → Session × Except Crash Unit
  | [] => (session, .ok ())
  | event :: rest =>
      match session.observe event with
      | (next, .ok ()) => next.observeAll rest
      | (next, .error crash) => (next, .error crash)

/-- The session after an emission, and its outcome unless the recorder failed
before it. -/
def run {α : Type} (session : Session) (emission : Emission Crash α) :
    Session × Except Crash α :=
  match session.observeAll emission.events with
  | (next, .ok ()) => (next, emission.outcome)
  | (next, .error crash) => (next, .error crash)

def render (session : Session) (value : Value) (position : Position) :
    Session × Except Crash String :=
  session.run (PhpRendering.render session.options value position)

def programOf (tree : Value) (found : String) : Except Failure Node :=
  match tree with
  | .node root => if root.kind = "Program" then .ok root else .error (.notAProgram root.kind)
  | _ => .error (.notATree found)

/-- The file for a tree: the opening tag and the text of the program. What the
tree was found to be is named when it is no node. -/
def generate (session : Session) (tree : Value) (found : String) :
    Session × Except Failure String :=
  match programOf tree found with
  | .error failure => (session, .error failure)
  | .ok root =>
      match session.render (.node root) {} with
      | (next, .ok text) => (next, .ok (session.options.openTag ++ text))
      | (next, .error crash) => (next, .error (.crash crash))

end Session

end PhpRendering
