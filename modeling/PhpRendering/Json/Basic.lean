import PhpRendering.Scalar
import PhpRendering.Text.Joined

/-!
# JSON values

A syntax tree arrives as a JSON value. Members keep the order in which they were
written.
-/

namespace PhpRendering

inductive Json where
  | scalar (value : Scalar)
  | array (items : List Json)
  | object (members : List (String × Json))
deriving Inhabited

namespace Json

abbrev null : Json := .scalar .null

abbrev text (value : String) : Json := .scalar (.text value)

def isNull : Json → Bool
  | .scalar .null => true
  | _ => false

def member? (name : String) : Json → Option Json
  | .object members => members.lookup name
  | _ => none

def member (name : String) (value : Json) : Json :=
  (value.member? name).getD .null

def text? : Json → Option String
  | .scalar (.text value) => some value
  | _ => none

mutual

def shownInside : Json → String
  | .scalar value => value.shownInside
  | .array items => "[" ++ Text.separatedBy ", " (shownItems items) ++ "]"
  | .object members => "\x7b" ++ Text.separatedBy ", " (shownMembers members) ++ "\x7d"

def shownItems : List Json → List String
  | [] => []
  | item :: rest => shownInside item :: shownItems rest

def shownMembers : List (String × Json) → List String
  | [] => []
  | (name, value) :: rest =>
      (Text.displayed name ++ ": " ++ shownInside value) :: shownMembers rest

end

def shown : Json → String
  | .scalar value => value.shown
  | other => other.shownInside

def typeName : Json → String
  | .scalar value => value.typeName
  | .array _ => "list"
  | .object _ => "dict"

end Json

end PhpRendering
