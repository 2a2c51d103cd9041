import PhpRendering.Command.Report
import PhpRendering.Json.Reader

/-!
# The command

Reads a syntax tree in JSON from the input file and writes the PHP text of its
program. What is said and written is settled by the report; this module only
touches the files and the streams.
-/

namespace PhpRendering

def usageText : String :=
  "usage: phprendering [-h] [-o OUTPUT] [--module] [--strict] [--verbose] input\n"

/-- What becomes of an input file, whose text is a syntax tree in JSON. -/
def inputOfText (text : String) : Command.Input :=
  match Json.read? text with
  | some tree => .parsed ⟨.data, tree⟩
  | none => .rejected "the text is not a JSON value"

def readInput (path : String) : IO Command.Input := do
  try
    return inputOfText (← IO.FS.readFile path)
  catch
    | .noFileOrDirectory .. => return .missing
    | _ => return .unreadable

end PhpRendering

open PhpRendering in
def main (arguments : List String) : IO UInt32 := do
  match Command.readArguments arguments with
  | .help =>
      IO.print usageText
      return 0
  | .badUsage =>
      IO.eprint usageText
      return 2
  | .proceed arguments => do
      let input ← readInput (Command.Path.ofText arguments.input).text
      let report := Command.report arguments input
      if let some (path, text) := report.file then
        IO.FS.writeFile path.text text
      IO.print report.standardOutput
      IO.eprint report.standardError
      match report.exitCode with
      | .ok code => return code.toUInt32
      | .error _ => return 1
