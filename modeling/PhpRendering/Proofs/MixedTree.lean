import PhpRendering.Tree.Conversion

/-!
# Mixed trees

Conversion takes more than the trees of one form. In a mixed tree plain data, objects of
the parser and nodes stand side by side: typed data and typed objects become nodes, and what
is a node already stays the node that it is. So conversion can be applied to its own result,
or to new data around it. On a tree of one form it gives the value of that tree, as
`MixedTree.value_convert` says.
-/

namespace PhpRendering

/-- What conversion takes and gives. A node may have anything as its location, and an object
of the parser is told apart by where it was read. -/
inductive MixedTree where
  | scalar (value : Scalar)
  | list (items : List MixedTree)
  | record (members : List (String × MixedTree))
  | object (origin : Origin) (members : List (String × MixedTree))
  | node (origin : Origin) (kind : String) (fields : List (String × MixedTree))
      (location : MixedTree)

namespace MixedTree

abbrev null : MixedTree := .scalar .null

def isNull : MixedTree → Bool
  | .scalar .null => true
  | _ => false

def isTruthy : MixedTree → Bool
  | .scalar value => value.isTruthy
  | .list items => !items.isEmpty
  | .record members => !members.isEmpty
  | .object _ _ => true
  | .node _ _ _ _ => true

def member (members : List (String × MixedTree)) (name : String) : MixedTree :=
  (members.lookup name).getD .null

mutual

def toJson : MixedTree → Json
  | .scalar value => .scalar value
  | .list items => .array (itemsToJson items)
  | .record members => .object (membersToJson members)
  | .object _ members => .object (membersToJson members)
  | .node _ kind fields location =>
      .object (("type", .text kind) :: ("loc", location.toJson) :: membersToJson fields)

def itemsToJson : List MixedTree → List Json
  | [] => []
  | item :: rest => item.toJson :: itemsToJson rest

def membersToJson : List (String × MixedTree) → List (String × Json)
  | [] => []
  | (name, value) :: rest => (name, value.toJson) :: membersToJson rest

end

def kindName : MixedTree → String
  | .node _ kind _ _ => "Node(" ++ Text.displayed kind ++ ")"
  | type => type.toJson.shown

/-! ## Locations -/

def lineNamed : MixedTree → MixedTree
  | .record start => member start "line"
  | _ => .null

/-- The line on which a node with some location starts, the absent value when it is not known.
Reading it fails when the location is set and cannot be asked for its start, and when it is a
node that has data as its start. -/
def startLine? (location : MixedTree) : Option MixedTree :=
  if location.isTruthy then
    match location with
    | .record members => some (member members "start").lineNamed
    | .node _ _ fields _ =>
        match member fields "start" with
        | .record _ => none
        | _ => some .null
    | _ => none
  else some .null

/-- What a location or its start is read for: the member of an object of the parser, or the
field of a node. The line of a node comes before its field, unless it cannot be read.
Everything else has nothing under any name. -/
def readAttribute (name : String) : MixedTree → MixedTree
  | .object _ members => member members name
  | .node _ _ fields location =>
      if name = "line" then location.startLine?.getD (member fields name) else member fields name
  | _ => .null

def startingAt (start : MixedTree) : MixedTree :=
  if start.isNull then .null
  else
    .record [("start",
      .record [("line", start.readAttribute "line"), ("column", start.readAttribute "column")])]

def asLocation : MixedTree → MixedTree
  | .record members => .record members
  | location => startingAt (location.readAttribute "start")

def location? : MixedTree → Option Location
  | .record members => some (membersToJson members)
  | _ => none

def locationOf (members : List (String × MixedTree)) : MixedTree :=
  (member members "loc").asLocation

/-! ## Conversion -/

def nodeType? (form : TreeForm) (members : List (String × MixedTree)) : Option MixedTree :=
  match form, members.lookup "type" with
  | _, none => none
  | .data, some type => some type
  | .objects, some type => if type.isNull then none else some type

theorem nodeType?_data (members : List (String × MixedTree)) :
    nodeType? .data members = members.lookup "type" := by
  unfold nodeType?
  cases members.lookup "type" <;> rfl

def isTyped : MixedTree → Bool
  | .record members => (nodeType? .data members).isSome
  | .object _ members => (nodeType? .objects members).isSome
  | _ => false

mutual

/-- A mixed tree whose typed data and typed objects are nodes. New nodes belong to the place
where they were read; what is a node already is not looked into. -/
def convert (origin : Origin) : MixedTree → MixedTree
  | .scalar value => .scalar value
  | .list items => .list (convertItems origin 0 items)
  | .record members =>
      match nodeType? .data members with
      | some type =>
          .node origin type.kindName (convertFields .data origin members) (locationOf members)
      | none => .record (convertMembers origin members)
  | .object place members =>
      match nodeType? .objects members with
      | some type =>
          .node origin type.kindName (convertFields .objects origin members) (locationOf members)
      | none => .object place members
  | .node place kind fields location => .node place kind fields location

def convertItems (origin : Origin) : Nat → List MixedTree → List MixedTree
  | _, [] => []
  | index, item :: rest =>
      item.convert (origin.down (.item index)) :: convertItems origin (index + 1) rest

def convertFields (form : TreeForm) (origin : Origin) :
    List (String × MixedTree) → List (String × MixedTree)
  | [] => []
  | (name, value) :: rest =>
      if form.keeps name then
        (name, value.convert (origin.down (.member name))) :: convertFields form origin rest
      else convertFields form origin rest

def convertMembers (origin : Origin) :
    List (String × MixedTree) → List (String × MixedTree)
  | [] => []
  | (name, value) :: rest =>
      (name, value.convert (origin.down (.member name))) :: convertMembers origin rest

end

section

variable (form : TreeForm) (origin : Origin)

theorem convertItems_eq (start : Nat) (items : List MixedTree) :
    convertItems origin start items =
      items.mapIdx fun index item => item.convert (origin.down (.item (start + index))) := by
  induction items generalizing start with
  | nil => rfl
  | cons item rest ih =>
      rw [convertItems, ih, List.mapIdx_cons]
      simp only [Nat.add_zero, Nat.add_assoc, Nat.add_comm 1]

theorem convertMembers_eq (members : List (String × MixedTree)) :
    convertMembers origin members =
      members.map fun entry => (entry.1, entry.2.convert (origin.down (.member entry.1))) := by
  induction members with
  | nil => rfl
  | cons entry rest ih => rw [convertMembers, ih, List.map_cons]

theorem convertFields_eq (members : List (String × MixedTree)) :
    convertFields form origin members =
      convertMembers origin (members.filter fun entry => form.keeps entry.1) := by
  induction members with
  | nil => rfl
  | cons entry rest ih =>
      rw [convertFields, ih, List.filter_cons]
      split
      · rw [convertMembers]
      · rfl

end

/-! ## Trees of one form -/

mutual

def ofJson (form : TreeForm) (origin : Origin) : Json → MixedTree
  | .scalar value => .scalar value
  | .array items => .list (ofItems form origin 0 items)
  | .object members =>
      match form with
      | .data => .record (ofMembers form origin members)
      | .objects => .object origin (ofMembers form origin members)

def ofItems (form : TreeForm) (origin : Origin) : Nat → List Json → List MixedTree
  | _, [] => []
  | index, item :: rest =>
      ofJson form (origin.down (.item index)) item :: ofItems form origin (index + 1) rest

def ofMembers (form : TreeForm) (origin : Origin) :
    List (String × Json) → List (String × MixedTree)
  | [] => []
  | (name, value) :: rest =>
      (name, ofJson form (origin.down (.member name)) value) :: ofMembers form origin rest

end

mutual

/-- The value of a converted tree. Location data are JSON values, and of an object of the
parser only the place is known. -/
def value : MixedTree → Value
  | .scalar value => .scalar value
  | .list items => .list (itemValues items)
  | .record members => .record (memberValues members)
  | .object origin _ => .foreign origin
  | .node origin kind fields location =>
      .node ⟨origin, kind, memberValues fields, location.location?⟩

def itemValues : List MixedTree → List Value
  | [] => []
  | item :: rest => item.value :: itemValues rest

def memberValues : List (String × MixedTree) → List (String × Value)
  | [] => []
  | (name, value) :: rest => (name, value.value) :: memberValues rest

end

/-! ## Members -/

/-- A look-up among members whose values are mapped, each under its name. -/
theorem lookup_mapValues {α β : Type} (image : String → α → β) (members : List (String × α))
    (name : String) :
    (members.map fun entry => (entry.1, image entry.1 entry.2)).lookup name =
      (members.lookup name).map (image name) := by
  induction members with
  | nil => rfl
  | cons entry rest ih =>
      rw [List.map_cons, List.lookup_cons, List.lookup_cons]
      split
      · next same => rw [LawfulBEq.eq_of_beq same, Option.map_some]
      · exact ih

theorem membersToJson_eq (members : List (String × MixedTree)) :
    membersToJson members = members.map fun entry => (entry.1, entry.2.toJson) := by
  induction members with
  | nil => rfl
  | cons entry rest ih => rw [membersToJson, ih, List.map_cons]

theorem lookup_membersToJson (members : List (String × MixedTree)) (name : String) :
    (membersToJson members).lookup name = (members.lookup name).map toJson := by
  rw [membersToJson_eq, lookup_mapValues fun _ => toJson]

variable (form : TreeForm) (origin : Origin)

theorem ofMembers_eq (members : List (String × Json)) :
    ofMembers form origin members =
      members.map fun entry => (entry.1, ofJson form (origin.down (.member entry.1)) entry.2) := by
  induction members with
  | nil => rfl
  | cons entry rest ih => rw [ofMembers, ih, List.map_cons]

theorem lookup_ofMembers (members : List (String × Json)) (name : String) :
    (ofMembers form origin members).lookup name =
      (members.lookup name).map (ofJson form (origin.down (.member name))) := by
  rw [ofMembers_eq, lookup_mapValues fun name => ofJson form (origin.down (.member name))]

/-- A member of a tree of one form is the tree of the member. -/
theorem member_ofMembers (members : List (String × Json)) (name : String) :
    member (ofMembers form origin members) name =
      ofJson form (origin.down (.member name)) ((Json.object members).member name) := by
  rw [member, lookup_ofMembers]
  simp only [Json.member, Json.member?]
  cases members.lookup name <;> rfl

theorem isNull_ofJson (source : Json) : (ofJson form origin source).isNull = source.isNull := by
  cases source with
  | scalar value => cases value <;> rfl
  | array items => rfl
  | object members => cases form <;> rfl

mutual

/-- A tree of one form stands for the value that it is made of. -/
theorem toJson_ofJson (form : TreeForm) (origin : Origin) (source : Json) :
    (ofJson form origin source).toJson = source := by
  cases source with
  | scalar value => rfl
  | array items => exact congrArg Json.array (itemsToJson_ofItems form origin 0 items)
  | object members =>
      have same := congrArg Json.object (membersToJson_ofMembers form origin members)
      cases form with
      | data => exact same
      | objects => exact same

theorem itemsToJson_ofItems (form : TreeForm) (origin : Origin) (start : Nat)
    (items : List Json) : itemsToJson (ofItems form origin start items) = items := by
  cases items with
  | nil => rfl
  | cons item rest =>
      rw [ofItems, itemsToJson, toJson_ofJson, itemsToJson_ofItems form origin (start + 1) rest]

theorem membersToJson_ofMembers (form : TreeForm) (origin : Origin)
    (members : List (String × Json)) :
    membersToJson (ofMembers form origin members) = members := by
  cases members with
  | nil => rfl
  | cons entry rest =>
      obtain ⟨name, value⟩ := entry
      rw [ofMembers, membersToJson, toJson_ofJson, membersToJson_ofMembers form origin rest]

end

theorem kindName_ofJson (type : Json) : (ofJson form origin type).kindName = type.shown := by
  have shown := congrArg Json.shown (toJson_ofJson form origin type)
  cases type with
  | scalar value => exact shown
  | array items => exact shown
  | object members => cases form <;> exact shown

/-- The type of an object does not depend on whether its members are trees already. -/
theorem nodeType?_ofMembers (members : List (String × Json)) :
    nodeType? form (ofMembers form origin members) =
      (form.nodeType? members).map (ofJson form (origin.down (.member "type"))) := by
  unfold nodeType? TreeForm.nodeType?
  rw [lookup_ofMembers]
  cases members.lookup "type" with
  | none => rfl
  | some type =>
      cases form with
      | data => rfl
      | objects =>
          dsimp only [Option.map_some]
          rw [isNull_ofJson]
          split <;> rfl

/-- What is read under a name of parser objects is the member with that name. -/
theorem readAttribute_ofJson (name : String) (source : Json) :
    (ofJson .objects origin source).readAttribute name =
      ofJson .objects (origin.down (.member name)) (source.member name) := by
  cases source with
  | scalar value => rfl
  | array items => rfl
  | object members => exact member_ofMembers .objects origin members name

theorem location?_startingAt (start : Json) :
    (startingAt (ofJson .objects origin start)).location? =
      if start.isNull then none
      else
        some [("start",
          .object [("line", start.member "line"), ("column", start.member "column")])] := by
  unfold startingAt
  rw [isNull_ofJson]
  split
  · rfl
  · simp only [location?, membersToJson, toJson, readAttribute_ofJson, toJson_ofJson]

/-- The location that is kept in a tree of one form. -/
theorem location?_locationOf (members : List (String × Json)) :
    (locationOf (ofMembers form origin members)).location? = form.location members := by
  unfold locationOf TreeForm.location
  rw [member, lookup_ofMembers]
  -- Only an object in the place of the location tells the forms apart.
  cases members.lookup "loc" with
  | none => cases form <;> rfl
  | some location =>
      cases location with
      | scalar value => cases form <;> rfl
      | array items => cases form <;> rfl
      | object known =>
          cases form with
          | data => exact congrArg some (membersToJson_ofMembers .data _ known)
          | objects =>
              let place := origin.down (.member "loc")
              have start := readAttribute_ofJson place "start" (.object known)
              have kept := location?_startingAt (place.down (.member "start"))
                ((Json.object known).member "start")
              rw [← start] at kept
              exact kept

/-! ## Agreement -/

mutual

/-- On a tree of one form conversion gives the value of the tree. -/
theorem value_convert (form : TreeForm) (origin : Origin) (source : Json) :
    ((ofJson form origin source).convert origin).value = form.convert origin source := by
  cases source with
  | scalar value => rfl
  | array items => exact congrArg Value.list (itemValues_convert form origin 0 items)
  | object members =>
      cases form with
      | data =>
          simp only [ofJson, convert, nodeType?_ofMembers, TreeForm.convert]
          cases TreeForm.data.nodeType? members with
          | none => exact congrArg Value.record (memberValues_convert .data origin members)
          | some type =>
              simp only [Option.map_some, value, kindName_ofJson, location?_locationOf,
                fieldValues_convert .data origin members]
      | objects =>
          simp only [ofJson, convert, nodeType?_ofMembers, TreeForm.convert]
          cases TreeForm.objects.nodeType? members with
          | none => rfl
          | some type =>
              simp only [Option.map_some, value, kindName_ofJson, location?_locationOf,
                fieldValues_convert .objects origin members]

theorem itemValues_convert (form : TreeForm) (origin : Origin) (start : Nat)
    (items : List Json) :
    itemValues (convertItems origin start (ofItems form origin start items)) =
      form.convertItems origin start items := by
  cases items with
  | nil => rfl
  | cons item rest =>
      rw [ofItems, convertItems, itemValues, TreeForm.convertItems, value_convert form,
        itemValues_convert form origin (start + 1) rest]

theorem fieldValues_convert (form : TreeForm) (origin : Origin)
    (members : List (String × Json)) :
    memberValues (convertFields form origin (ofMembers form origin members)) =
      form.convertFields origin members := by
  cases members with
  | nil => rfl
  | cons entry rest =>
      obtain ⟨name, value⟩ := entry
      rw [ofMembers, convertFields, TreeForm.convertFields]
      split
      · rw [memberValues, value_convert form, fieldValues_convert form origin rest]
      · exact fieldValues_convert form origin rest

theorem memberValues_convert (form : TreeForm) (origin : Origin)
    (members : List (String × Json)) :
    memberValues (convertMembers origin (ofMembers form origin members)) =
      form.convertMembers origin members := by
  cases members with
  | nil => rfl
  | cons entry rest =>
      obtain ⟨name, value⟩ := entry
      rw [ofMembers, convertMembers, memberValues, TreeForm.convertMembers, value_convert form,
        memberValues_convert form origin rest]

end

end MixedTree

end PhpRendering
