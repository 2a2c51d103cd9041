import PhpRendering.Tree.Basic

/-!
# Substitutes

Some members have no counterpart in the target. A function call takes their
place: `strtolower($name)` that of `name.toLowerCase()`, `count($items)` that of
`items.length`. A table holds one substitute per name, separately for calls and
for plain reads, in the order in which the names were first registered.
-/

namespace PhpRendering

/-- What takes the place of a call or of a read. -/
inductive Substitute where
  /-- `r.m(a, b)` becomes `function(r, a, b)` -/
  | receiverFirst (function : String)
  /-- `r.m(a, b)` becomes `function(a, b, r)` -/
  | receiverLast (function : String)
  /-- the read `r.p` becomes `function(r)` -/
  | propertyFunction (function : String)
  /-- `r.m(i)` becomes `substr(r, i, 1)` -/
  | charAt
  /-- anything becomes the given text -/
  | constant (text : String)
deriving DecidableEq, Repr

/-- The substitutes of calls and of reads, by member name. -/
structure SubstituteTable where
  methods : List (String × Substitute)
  properties : List (String × Substitute)
deriving DecidableEq, Repr

namespace SubstituteTable

def empty : SubstituteTable :=
  ⟨[], []⟩

def builtIn : SubstituteTable :=
  { methods :=
      [("toLowerCase", .receiverFirst "strtolower"),
       ("toUpperCase", .receiverFirst "strtoupper"),
       ("trim", .receiverFirst "trim"),
       ("push", .receiverFirst "array_push"),
       ("pop", .receiverFirst "array_pop"),
       ("shift", .receiverFirst "array_shift"),
       ("join", .receiverLast "implode"),
       ("split", .receiverLast "explode"),
       ("indexOf", .receiverFirst "strpos"),
       ("replace", .receiverLast "str_replace"),
       ("substr", .receiverFirst "substr"),
       ("charAt", .charAt)]
    properties := [("length", .propertyFunction "count")] }

/-- Entries with one substitute set; a known name keeps its place. -/
def setEntry (name : String) (substitute : Substitute) :
    List (String × Substitute) → List (String × Substitute)
  | [] => [(name, substitute)]
  | (known, old) :: rest =>
      if known = name then (name, substitute) :: rest
      else (known, old) :: setEntry name substitute rest

def register (table : SubstituteTable) (name : String) (substitute : Substitute) : SubstituteTable :=
  { table with methods := setEntry name substitute table.methods }

def registerProperty (table : SubstituteTable) (name : String) (substitute : Substitute) : SubstituteTable :=
  { table with properties := setEntry name substitute table.properties }

def names (table : SubstituteTable) : List String :=
  table.methods.map Prod.fst

/-- The substitute registered for a name; the empty name has none. -/
def find? (entries : List (String × Substitute)) (name : String) : Option Substitute :=
  if name = "" then none else entries.lookup name

def method? (table : SubstituteTable) (name : String) : Option Substitute :=
  find? table.methods name

def property? (table : SubstituteTable) (name : String) : Option Substitute :=
  find? table.properties name

end SubstituteTable

/-- The name by which a value asks for a substitute. A list or a record that holds
something cannot be a name; other values have no substitute. -/
def Value.substituteName (value : Value) : Except Crash String :=
  match value with
  | .scalar (.text name) => .ok name
  | .list [] => .ok ""
  | .list (_ :: _) => .error .notAName
  | .record [] => .ok ""
  | .record (_ :: _) => .error .notAName
  | _ => .ok ""

def Node.accessedName (member : Node) : Except Crash String :=
  if member.flag "computed" then .ok ""
  else
    match member.field "property" with
    | .node property =>
        if property.kind = "Identifier" then (property.field "name").substituteName else .ok ""
    | _ => .ok ""

end PhpRendering
