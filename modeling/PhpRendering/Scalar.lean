import PhpRendering.Number.Shortest
import PhpRendering.Text.Displayed
import PhpRendering.Text.Quoted

/-!
# Scalars

The values without parts that a syntax tree may carry: nothing, a truth value, a
number, or a text. Whole numbers are unbounded; a number written with a point
or an exponent is a binary64 number.
-/

namespace PhpRendering

open PhpRendering.Number PhpRendering.Text

inductive Scalar where
  | null
  | bool (value : Bool)
  | int (value : Int)
  | float (value : Binary64)
  | text (value : String)
deriving DecidableEq, Repr, Inhabited

namespace Scalar

/-- Whether a scalar counts as a set flag: everything but nothing, falsehood,
zero and the empty text. -/
def isTruthy : Scalar → Bool
  | null => false
  | bool value => value
  | int value => value != 0
  | float value => !value.isZero
  | text value => value != ""

/-- The scalar by which others are equal to a scalar: truth values and whole floats
count as integers. -/
def amount : Scalar → Scalar
  | bool value => int (if value then 1 else 0)
  | float value =>
      match value.toInt? with
      | some whole => int whole
      | none => float value
  | other => other

/-- Whether two scalars are equal. Numbers are compared by their amount, whatever
their form. -/
def isEqual (first second : Scalar) : Bool :=
  first.amount == second.amount

/-- Whether there is only one scalar of a value, wherever it is read. That holds of
nothing, of the truth values, of infinity, and of short integers and texts; every
other scalar is itself only where it was read. -/
def isUnique : Scalar → Bool
  | null => true
  | bool _ => true
  | int value => -5 ≤ value && value ≤ 256
  | float (.infinite _) => true
  | float _ => false
  | text value =>
      match value.toList with
      | [] => true
      | [letter] => letter.toNat < 256
      | _ => false

def shown : Scalar → String
  | null => "None"
  | bool true => "True"
  | bool false => "False"
  | int value => toString value
  | float value => value.text
  | text value => value

/-- A scalar as it stands inside a shown list or record, where texts are quoted. -/
def shownInside : Scalar → String
  | text value => displayed value
  | other => other.shown

/-- The literal of the target that denotes a scalar. A float equal to an integer
is written as that integer. -/
def literal : Scalar → String
  | null => "null"
  | bool true => "true"
  | bool false => "false"
  | int value => toString value
  | float value =>
      match value.toInt? with
      | some whole => toString whole
      | none => value.text
  | text value => singleQuoted value

def typeName : Scalar → String
  | null => "NoneType"
  | bool _ => "bool"
  | int _ => "int"
  | float _ => "float"
  | text _ => "str"

end Scalar

end PhpRendering
