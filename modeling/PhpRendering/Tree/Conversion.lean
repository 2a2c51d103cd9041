import PhpRendering.Tree.Basic

/-!
# Trees from JSON

A JSON object with a type becomes a node of that kind, all other values stay
plain. What the parser adds about the source text is not kept as fields; the
location is kept aside.

A tree arrives in one of two forms: as plain data, or as parser objects whose
members are attributes. Parser objects hide members that start with an
underscore, count as nodes only when their type is set, and have a location of
two known members.
-/

namespace PhpRendering

inductive TreeForm where
  | data
  | objects
deriving DecidableEq, Repr, Inhabited

/-- The members that describe the source text and are not fields of a node. -/
def metadataMembers : List String :=
  ["type", "loc", "range", "tokens", "comments", "errors"]

def TreeForm.keeps (form : TreeForm) (name : String) : Bool :=
  !metadataMembers.contains name &&
    match form with
    | .data => true
    | .objects => !isReservedName name

def TreeForm.nodeType? (form : TreeForm) (members : List (String × Json)) : Option Json :=
  match form, members.lookup "type" with
  | _, none => none
  | .data, some type => some type
  | .objects, some type => if type.isNull then none else some type

def TreeForm.location (form : TreeForm) (members : List (String × Json)) : Option Location :=
  match form, members.lookup "loc" with
  | .data, some (.object location) => some location
  | .objects, some (.object location) =>
      let start := (Json.object location).member "start"
      if start.isNull then none
      else
        some [("start", .object [("line", start.member "line"), ("column", start.member "column")])]
  | _, _ => none

mutual

def TreeForm.convert (form : TreeForm) (origin : Origin) : Json → Value
  | .scalar value => .scalar value
  | .array items => .list (form.convertItems origin 0 items)
  | .object members =>
      match form.nodeType? members with
      | some type =>
          .node
            { origin := origin
              kind := type.shown
              fields := form.convertFields origin members
              location := form.location members }
      | none =>
          match form with
          | .data => .record (form.convertMembers origin members)
          | .objects => .foreign origin

def TreeForm.convertItems (form : TreeForm) (origin : Origin) : Nat → List Json → List Value
  | _, [] => []
  | index, item :: rest =>
      form.convert (origin.down (.item index)) item :: form.convertItems origin (index + 1) rest

def TreeForm.convertFields (form : TreeForm) (origin : Origin) :
    List (String × Json) → List (String × Value)
  | [] => []
  | (name, value) :: rest =>
      if form.keeps name then
        (name, form.convert (origin.down (.member name)) value) :: form.convertFields origin rest
      else form.convertFields origin rest

def TreeForm.convertMembers (form : TreeForm) (origin : Origin) :
    List (String × Json) → List (String × Value)
  | [] => []
  | (name, value) :: rest =>
      (name, form.convert (origin.down (.member name)) value) :: form.convertMembers origin rest

end

def Value.ofJson (form : TreeForm) (tree : Nat) (source : Json) : Value :=
  form.convert ⟨tree, []⟩ source

end PhpRendering
