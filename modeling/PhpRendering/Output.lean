import PhpRendering.Tree.Shown

/-!
# Outputs

The output of a rendering is a text, unless a literal has a spelling that is none.
Such a spelling stays what it is: it can be shown inside a larger text and it can
be added to, but whoever needs a text of it fails. The sum of two numbers may be
no number.
-/

namespace PhpRendering

open PhpRendering.Number

/-- What a node is rendered as. -/
inductive Output where
  | held (value : Value)
  | notANumber

/-- What stands in a sum: an integer or a float. Truth values count as integers. -/
inductive Summand where
  | int (value : Int)
  | float (value : Binary64)

def Scalar.summand? : Scalar → Option Summand
  | .bool value => some (.int (if value then 1 else 0))
  | .int value => some (.int value)
  | .float value => some (.float value)
  | _ => none

def Summand.asFloat : Summand → Except Crash Binary64
  | .float value => .ok value
  | .int value =>
      match Binary64.ofInt? value with
      | some nearest => .ok nearest
      | none => .error .notAName

namespace Output

abbrev text (text : String) : Output := .held (.text text)

def shown : Output → String
  | .held value => value.shown
  | .notANumber => "nan"

def asText : Output → Except Crash String
  | .held (.scalar (.text text)) => .ok text
  | _ => .error .notAName

def ofFloats (first second : Binary64) : Output :=
  match first.plus second with
  | some total => .held (.scalar (.float total))
  | none => .notANumber

def sum : Summand → Summand → Except Crash Output
  | .int first, .int second => .ok (.held (.scalar (.int (first + second))))
  | first, second => do return ofFloats (← first.asFloat) (← second.asFloat)

/-- An output with a value added to it: texts and lists are joined, numbers are
summed. -/
def plus : Output → Value → Except Crash Output
  | .held (.list items), .list more => .ok (.held (.list (items ++ more)))
  | .held (.scalar (.text before)), .scalar (.text after) => .ok (text (before ++ after))
  | .held (.scalar first), .scalar second =>
      match first.summand?, second.summand? with
      | some first, some second => sum first second
      | _, _ => .error .notAName
  | .notANumber, .scalar second =>
      match second.summand? with
      | some second => do
          let _ ← second.asFloat
          return .notANumber
      | none => .error .notAName
  | _, _ => .error .notAName

def continued (more : String) : Output → Except Crash Output
  | .held (.scalar (.text before)) => .ok (text (before ++ more))
  | .held (.list items) => .ok (.held (.list (items ++ Value.letters more)))
  | _ => .error .notAName

end Output

end PhpRendering
