import PhpRendering.Emission
import PhpRendering.Output
import PhpRendering.Position
import PhpRendering.Substitute

/-!
# Fragments and rules

The rule of a kind renders a node of that kind into a fragment: an output, and
whether it is a statement that still owes its terminator. The terminator is added
once, at the boundary of the node that owes it. Rules render children through an
emitter that is handed to them, and show each child inside a text or need it to
be a text itself.
-/

namespace PhpRendering

/-- What the user of a rendering may choose. -/
structure Options where
  openTag : String := "<?php\n"
  constructorName : String := "__construct"
  substitutes : SubstituteTable := SubstituteTable.builtIn

/-- What a rule makes of a node, and whether it owes a statement terminator. -/
structure Fragment (α : Type) where
  content : α
  owesTerminator : Bool

abbrev Fragment.plain (text : String) : Fragment Output :=
  ⟨.text text, false⟩

abbrev Fragment.statement (text : String) : Fragment Output :=
  ⟨.text text, true⟩

def terminator : String := ";\n"

/-- Whether a text, read from its end, ends in a semicolon and at most one line
end after it. -/
def isTerminatedBackwards : List Char → Bool
  | ';' :: _ => true
  | '\n' :: ';' :: _ => true
  | _ => false

def isTerminated (text : String) : Bool :=
  isTerminatedBackwards text.toList.reverse

def withoutTerminatorBackwards : List Char → List Char
  | ';' :: rest => rest
  | '\n' :: ';' :: rest => rest
  | letters => letters

/-- A text without its terminator, for use inside a larger statement. -/
def withoutTerminator (text : String) : String :=
  String.ofList (withoutTerminatorBackwards text.toList.reverse).reverse

def endLine (text : String) : String :=
  if text.toList.getLast? = some '\n' then text else text ++ "\n"

/-- The text of a fragment with the terminator it owes. -/
def Fragment.terminated (fragment : Fragment String) : String :=
  if fragment.owesTerminator && !isTerminated fragment.content then fragment.content ++ terminator
  else fragment.content

def Fragment.finished : Fragment Output → Except Crash Output
  | ⟨.held (.scalar (.text text)), owesTerminator⟩ =>
      .ok (.text (terminated ⟨text, owesTerminator⟩))
  | ⟨output, owesTerminator⟩ => if owesTerminator then .error .notAName else .ok output

/-- How values are rendered at their positions, for the output that comes of it. -/
abbrev Emitter := Value → Position → Emission Crash Output

/-- How values are rendered at their positions, for the text that is shown of it. -/
abbrev Renderer := Value → Position → Emission Crash String

/-- The outcome of a rule. -/
abbrev Rendering := Emission Fault (Fragment Output)

namespace Rule

variable {α : Type}

def child (render : Value → Position → Emission Crash α) (value : Value) (position : Position) :
    Emission Fault α :=
  (render value position).insideRule

/-- A child as it stands inside a larger text. -/
def shown (emit : Emitter) (value : Value) (position : Position) : Emission Fault String := do
  return (← child emit value position).shown

def text (emit : Emitter) (value : Value) (position : Position) : Emission Fault String := do
  Emission.ofShape (← child emit value position).asText

def texts (outputs : List Output) : Emission Fault (List String) :=
  Emission.ofShape (outputs.mapM Output.asText)

/-- A child for use inside a larger statement. -/
def inline (emit : Emitter) (value : Value) (position : Position) : Emission Fault String := do
  return withoutTerminator (← text emit value position)

def required (node : Node) (field : String) : Emission Fault Value :=
  .ofFields (node.require field)

/-- The children of a statement list in order; holes of the list are skipped. -/
def sequence (emit : Emitter) (parent : Node) (list : Value) : Emission Fault String := do
  let items ← Emission.ofShape list.items
  let outputs ← Emission.each (fun (item, index) =>
    if item.isNull then .done (.text "")
    else
      child emit item { Position.within parent with isLast := index + 1 == items.length })
    items.zipIdx
  return Text.joined (← texts outputs)

def children (emit : Emitter) (position : Position) (items : List Value) :
    Emission Fault (List Output) :=
  Emission.each (fun item => child emit item position) items

def unsupported (node : Node) (feature : String) : Rendering := do
  Emission.report (Diagnostic.unsupported node feature)
  return .plain ""

def commaSeparated (texts : List String) : String :=
  Text.separatedBy ", " texts

end Rule

end PhpRendering
