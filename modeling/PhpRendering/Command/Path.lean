import PhpRendering.Text.Joined

/-!
# Paths

A path is its steps from where it starts. Empty steps and steps in place are left
out; a step up is kept. The path without steps is written as a single dot.
-/

namespace PhpRendering.Command

structure Path where
  /-- the leading slashes, none for a path from the working directory -/
  root : String
  steps : List String
deriving DecidableEq, Repr

def splitAtSlashes : List Char → List (List Char)
  | [] => [[]]
  | letter :: rest =>
      match splitAtSlashes rest with
      | [] => [[letter]]
      | part :: parts => if letter == '/' then [] :: part :: parts else (letter :: part) :: parts

namespace Path

/-- The leading slashes of a path. Exactly two are a root of their own. -/
def rootOf (letters : List Char) : String :=
  match (letters.takeWhile (· == '/')).length with
  | 0 => ""
  | 2 => "//"
  | _ => "/"

def ofText (text : String) : Path :=
  let parts := (splitAtSlashes text.toList).map String.ofList
  ⟨rootOf text.toList, parts.filter fun part => part != "" && part != "."⟩

def text (path : Path) : String :=
  if path.root = "" ∧ path.steps.isEmpty then "."
  else path.root ++ Text.separatedBy "/" path.steps

end Path

end PhpRendering.Command
