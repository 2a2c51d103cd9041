import PhpRendering.Command.Report

/-!
# Hosts of the command

A run asks its host whether the input exists and what the parser makes of it, and hands
its text to the standard output or to a file. The host may refuse each of these. Only the
failures to read are caught: every other one ends the run without a report.
-/

namespace PhpRendering.Command

inductive ParserAnswer where
  | tree (program : Parsed)
  | refused (message : String)
  /-- neither a tree nor a message: the parser fails in another way -/
  | failed

def ParserAnswer.input : ParserAnswer → Input
  | tree program => .parsed program
  | refused message => .rejected message
  | failed => .unreadable

/-- What a host answers to a run, whose errors and files may be of any kind. -/
structure Host (Error File : Type) where
  /-- whether something stands at a path -/
  exists? : Path → Except Error Bool
  /-- what the parser makes of the file at a path, as a script or as a module -/
  source : Path → (asModule : Bool) → Except Error ParserAnswer
  /-- the standard output given a text, which it may be unable to encode -/
  print : String → Except Error Unit
  /-- the file in which a text is stored that is written at a path -/
  target : Path → String → Except Error File
  /-- the text of a file, when it has one -/
  content? : File → Option String

/-- How a run of the command ends. -/
inductive Ending (Error File : Type) where
  | help
  | badUsage
  | reported (report : Report) (written : List (File × String))
  | stopped (error : Error)

namespace Host

variable {Error File : Type}

/-- What becomes of the input at a path. Nothing is caught before the file is opened. -/
def input (host : Host Error File) (path : Path) (asModule : Bool) : Except Error Input := do
  if ← host.exists? path then
    match host.source path asModule with
    | .ok answer => return answer.input
    | .error _ => return .unreadable
  else return .missing

/-- The files that are new or changed after a text was written at a path. -/
def write (host : Host Error File) (path : Path) (text : String) :
    Except Error (List (File × String)) := do
  let file ← host.target path text
  return if host.content? file = some text then [] else [(file, text)]

/-- The files that a report leaves new or changed, unless its text cannot be handed over. -/
def deliver (host : Host Error File) (report : Report) : Except Error (List (File × String)) :=
  match report.file with
  | some (path, text) => host.write path text
  | none => do
      if report.standardOutput ≠ "" then host.print report.standardOutput
      return []

def conclude (host : Host Error File) (report : Report) : Ending Error File :=
  match host.deliver report with
  | .ok written => .reported report written
  | .error error => .stopped error

def run (host : Host Error File) (arguments : List String) : Ending Error File :=
  match readArguments arguments with
  | .help => .help
  | .badUsage => .badUsage
  | .proceed arguments =>
      match host.input (Path.ofText arguments.input) arguments.asModule with
      | .error error => .stopped error
      | .ok input => host.conclude (report arguments input)

end Host

end PhpRendering.Command
