import PhpRendering.Proofs.MixedTree

/-!
# The normal form of trees

Conversion leaves a tree in normal form: nothing in it is still to become a node, no node has
metadata among its fields, and the location of every node can be read for its line. A tree in
normal form is its own conversion. `MixedTree.conversion_yields_normal_form` says so of every
JSON value in both forms; a mixed tree only needs nodes that are in normal form already.
-/

namespace PhpRendering

namespace MixedTree

/-! ## Locations -/

/-- Whether a value is neither an object of the parser nor a node. -/
def isPlain : MixedTree → Bool
  | .object _ _ => false
  | .node _ _ _ _ => false
  | _ => true

/-- The locations that conversion leaves: nothing, or data with plain data as the start. -/
inductive IsLocation : MixedTree → Prop where
  | unknown : IsLocation .null
  | known {members : List (String × MixedTree)}
      (start : (member members "start").isPlain = true) : IsLocation (.record members)

theorem IsLocation.null_or_record {location : MixedTree} (located : location.IsLocation) :
    location = .null ∨ ∃ members, location = .record members := by
  cases located with
  | unknown => exact .inl rfl
  | known start => exact .inr ⟨_, rfl⟩

/-- Whatever is read for a start, what is kept of it is a location. -/
theorem startingAt_isLocation (start : MixedTree) : (startingAt start).IsLocation := by
  unfold startingAt
  split
  · exact .unknown
  · exact .known rfl

theorem startLine?_record (members : List (String × MixedTree)) :
    startLine? (.record members) = some (member members "start").lineNamed := by
  cases members <;> rfl

/-- The line of a location that conversion leaves can be read, and it is that of its node. -/
theorem IsLocation.exists_line {location : MixedTree} (located : location.IsLocation)
    (origin : Origin) (kind : String) (fields : List (String × Value)) :
    ∃ line, location.startLine? = some line ∧
      line.toJson = Node.line ⟨origin, kind, fields, location.location?⟩ := by
  cases located with
  | unknown => exact ⟨.null, rfl, rfl⟩
  | @known members plain =>
      refine ⟨_, startLine?_record members, ?_⟩
      simp only [Node.line, location?, lookup_membersToJson]
      unfold member at plain ⊢
      generalize members.lookup "start" = held at plain ⊢
      -- An object of the parser would name its line to the JSON reading alone.
      cases held with
      | none => rfl
      | some start =>
          cases start with
          | scalar value => rfl
          | list items => rfl
          | record known =>
              change (member known "line").toJson = ((membersToJson known).lookup "line").getD .null
              rw [member, lookup_membersToJson]
              cases known.lookup "line" <;> rfl
          | object origin known => cases plain
          | node origin kind fields location => cases plain

/-! ## Normal forms -/

/-- A tree in which conversion has nothing to do and leaves nothing behind. What is inside an
object that is no node, or inside a location, does not matter. -/
inductive IsNormal : MixedTree → Prop where
  | scalar (value : Scalar) : IsNormal (.scalar value)
  | list {items : List MixedTree} (each : ∀ item ∈ items, IsNormal item) :
      IsNormal (.list items)
  | record {members : List (String × MixedTree)} (untyped : nodeType? .data members = none)
      (each : ∀ entry ∈ members, IsNormal entry.2) : IsNormal (.record members)
  | object (origin : Origin) {members : List (String × MixedTree)}
      (untyped : nodeType? .objects members = none) : IsNormal (.object origin members)
  | node (origin : Origin) (kind : String) {fields : List (String × MixedTree)}
      {location : MixedTree} (bare : ∀ entry ∈ fields, entry.1 ∉ metadataMembers)
      (each : ∀ entry ∈ fields, IsNormal entry.2) (located : location.IsLocation) :
      IsNormal (.node origin kind fields location)

/-- The parts of a tree at any depth, itself included. Neither locations nor objects of the
parser are looked into. -/
inductive Holds : MixedTree → MixedTree → Prop where
  | here (tree : MixedTree) : Holds tree tree
  | item {items : List MixedTree} {item part : MixedTree} (listed : item ∈ items)
      (inside : Holds item part) : Holds (.list items) part
  | member {members : List (String × MixedTree)} {entry : String × MixedTree}
      {part : MixedTree} (listed : entry ∈ members) (inside : Holds entry.2 part) :
      Holds (.record members) part
  | field {origin : Origin} {kind : String} {fields : List (String × MixedTree)}
      {location : MixedTree} {entry : String × MixedTree} {part : MixedTree}
      (listed : entry ∈ fields) (inside : Holds entry.2 part) :
      Holds (.node origin kind fields location) part

theorem convertMembers_eq_self (place : Origin) {members : List (String × MixedTree)}
    (each : ∀ entry ∈ members, ∀ place, entry.2.convert place = entry.2) :
    convertMembers place members = members := by
  rw [convertMembers_eq]
  refine (List.map_congr_left fun entry listed => ?_).trans (List.map_id members)
  rw [each entry listed]
  rfl

theorem convertItems_eq_self (place : Origin) {items : List MixedTree}
    (each : ∀ item ∈ items, ∀ place, item.convert place = item) :
    convertItems place 0 items = items := by
  rw [convertItems_eq, List.mapIdx_eq_iff]
  intro index
  cases found : items[index]? with
  | none => rfl
  | some item => exact congrArg some (each item (List.mem_of_getElem? found) _).symm

namespace IsNormal

variable {tree part : MixedTree}

/-- Every part of a tree in normal form is in normal form. -/
theorem of_holds (normal : tree.IsNormal) (held : tree.Holds part) : part.IsNormal := by
  -- Induction on the way down to the part.
  induction held with
  | here tree => exact normal
  | item listed inside ih =>
      cases normal with
      | list each => exact ih (each _ listed)
  | member listed inside ih =>
      cases normal with
      | record untyped each => exact ih (each _ listed)
  | field listed inside ih =>
      cases normal with
      | node origin kind bare each located => exact ih (each _ listed)

/-- Nothing in normal form is still to become a node. -/
theorem isTyped_eq_false (normal : tree.IsNormal) : tree.isTyped = false := by
  cases normal with
  | record untyped each => rw [isTyped, untyped, Option.isSome_none]
  | object origin untyped => rw [isTyped, untyped, Option.isSome_none]
  | _ => rfl

/-- A tree in normal form is its own conversion, wherever it is read. -/
theorem convert_eq (normal : tree.IsNormal) (place : Origin) : tree.convert place = tree := by
  induction normal generalizing place with
  | scalar value => rfl
  | list each ih => exact congrArg MixedTree.list (convertItems_eq_self place ih)
  | record untyped each ih =>
      simp only [convert, untyped]
      exact congrArg MixedTree.record (convertMembers_eq_self place ih)
  | object origin untyped => simp only [convert, untyped]
  | node origin kind bare each located ih => rfl

end IsNormal

/-! ## Conversion into normal form -/

/-- A mixed tree whose nodes are in normal form, and whose locations have no object of the
parser and no node as the start of data. -/
inductive IsConvertible : MixedTree → Prop where
  | scalar (value : Scalar) : IsConvertible (.scalar value)
  | list {items : List MixedTree} (each : ∀ item ∈ items, IsConvertible item) :
      IsConvertible (.list items)
  | record {members : List (String × MixedTree)} (located : (locationOf members).IsLocation)
      (each : ∀ entry ∈ members, IsConvertible entry.2) : IsConvertible (.record members)
  | object (origin : Origin) {members : List (String × MixedTree)}
      (located : (locationOf members).IsLocation)
      (each : ∀ entry ∈ members, IsConvertible entry.2) : IsConvertible (.object origin members)
  | node {origin : Origin} {kind : String} {fields : List (String × MixedTree)}
      {location : MixedTree} (normal : (node origin kind fields location).IsNormal) :
      IsConvertible (.node origin kind fields location)

section

variable {form : TreeForm} {origin : Origin} {members : List (String × MixedTree)}

/-- A field is no metadata. -/
theorem not_metadata_of_keeps {name : String} (kept : form.keeps name = true) :
    name ∉ metadataMembers := by
  intro listed
  unfold TreeForm.keeps at kept
  rw [List.contains_iff_mem.mpr listed] at kept
  cases kept

theorem convertMembers_isNormal
    (each : ∀ entry ∈ members, ∀ place, (entry.2.convert place).IsNormal) :
    ∀ entry ∈ convertMembers origin members, entry.2.IsNormal := by
  rw [convertMembers_eq]
  refine List.forall_mem_map.mpr fun entry listed => ?_
  exact each entry listed _

theorem node_isNormal (place : Origin) (kind : String) (located : (locationOf members).IsLocation)
    (each : ∀ entry ∈ members, ∀ place, (entry.2.convert place).IsNormal) :
    (node place kind (convertFields form origin members) (locationOf members)).IsNormal := by
  rw [convertFields_eq]
  refine .node place kind ?_ ?_ located
  · rw [convertMembers_eq]
    refine List.forall_mem_map.mpr fun entry listed => ?_
    exact not_metadata_of_keeps (List.mem_filter.mp listed).2
  · exact convertMembers_isNormal fun entry listed => each entry (List.mem_filter.mp listed).1

/-- Data without a type have none after the conversion of their members. -/
theorem nodeType?_convertMembers (untyped : nodeType? .data members = none) :
    nodeType? .data (convertMembers origin members) = none := by
  rw [nodeType?_data] at untyped ⊢
  rw [convertMembers_eq, lookup_mapValues fun name => convert (origin.down (.member name)), untyped]
  rfl

end

/-- Conversion brings every convertible tree into normal form, whatever stands side by side
in it. -/
theorem IsConvertible.convert_isNormal {tree : MixedTree} (convertible : tree.IsConvertible)
    (place : Origin) : (tree.convert place).IsNormal := by
  -- Every part is converted at a place of its own, so the hypotheses speak of all places.
  induction convertible generalizing place with
  | scalar value => exact .scalar value
  | @list items each ih =>
      refine .list ?_
      rw [convertItems_eq]
      intro result listed
      obtain ⟨index, bound, rfl⟩ := List.mem_mapIdx.mp listed
      exact ih _ (List.getElem_mem bound) _
  | @record members located each ih =>
      unfold convert
      split
      · exact node_isNormal place _ located ih
      · next untyped =>
          exact .record (nodeType?_convertMembers untyped) (convertMembers_isNormal ih)
  | @object origin members located each ih =>
      unfold convert
      split
      · exact node_isNormal place _ located ih
      · next untyped => exact .object origin untyped
  | node normal => exact normal

/-! ## Trees of one form -/

/-- The location in a tree of one form is nothing or plain data. -/
theorem locationOf_isLocation (form : TreeForm) (origin : Origin)
    (members : List (String × Json)) :
    (locationOf (ofMembers form origin members)).IsLocation := by
  unfold locationOf
  rw [member_ofMembers]
  cases (Json.object members).member "loc" with
  | scalar value => exact startingAt_isLocation _
  | array items => exact startingAt_isLocation _
  | object known =>
      cases form with
      | data =>
          refine .known ?_
          rw [member_ofMembers]
          cases (Json.object known).member "start" <;> rfl
      | objects => exact startingAt_isLocation _

mutual

/-- A tree of one form holds no nodes, so nothing hinders its conversion. -/
theorem ofJson_isConvertible (form : TreeForm) (origin : Origin) (source : Json) :
    (ofJson form origin source).IsConvertible := by
  cases source with
  | scalar value => exact .scalar value
  | array items => exact .list (ofItems_isConvertible form origin 0 items)
  | object members =>
      have located := locationOf_isLocation form origin members
      have each := ofMembers_isConvertible form origin members
      cases form with
      | data => exact .record located each
      | objects => exact .object origin located each

theorem ofItems_isConvertible (form : TreeForm) (origin : Origin) (start : Nat)
    (items : List Json) : ∀ item ∈ ofItems form origin start items, item.IsConvertible := by
  cases items with
  | nil => exact List.forall_mem_nil _
  | cons item rest =>
      exact List.forall_mem_cons.mpr
        ⟨ofJson_isConvertible form _ item, ofItems_isConvertible form origin (start + 1) rest⟩

theorem ofMembers_isConvertible (form : TreeForm) (origin : Origin)
    (members : List (String × Json)) :
    ∀ entry ∈ ofMembers form origin members, entry.2.IsConvertible := by
  cases members with
  | nil => exact List.forall_mem_nil _
  | cons entry rest =>
      exact List.forall_mem_cons.mpr
        ⟨ofJson_isConvertible form _ entry.2, ofMembers_isConvertible form origin rest⟩

end

def converted (form : TreeForm) (tree : Nat) (source : Json) : MixedTree :=
  (ofJson form ⟨tree, []⟩ source).convert ⟨tree, []⟩

/-- Conversion yields a normal form. Whatever a JSON value holds and in whichever form it
arrives, its conversion is the value of the tree, and converting once more changes nothing.
At any depth, no node has metadata among its fields, the location of a node is nothing or data
and can be read for the line of the node, plain data have no type, and no item of a list is
still to become a node. -/
theorem conversion_yields_normal_form (form : TreeForm) (tree : Nat) (source : Json) :
    (converted form tree source).value = Value.ofJson form tree source ∧
      (∀ place, (converted form tree source).convert place = converted form tree source) ∧
      (∀ origin kind fields location,
        (converted form tree source).Holds (.node origin kind fields location) →
          (∀ entry ∈ fields, entry.1 ∉ metadataMembers) ∧
            (location = .null ∨ ∃ members, location = .record members) ∧
            ∃ line, location.startLine? = some line ∧
              line.toJson =
                Node.line ⟨origin, kind, memberValues fields, location.location?⟩) ∧
      (∀ members, (converted form tree source).Holds (.record members) →
        ∀ entry ∈ members, entry.1 ≠ "type") ∧
      ∀ items, (converted form tree source).Holds (.list items) →
        ∀ item ∈ items, item.isTyped = false := by
  have normal : (converted form tree source).IsNormal :=
    (ofJson_isConvertible form ⟨tree, []⟩ source).convert_isNormal _
  refine ⟨value_convert form _ source, normal.convert_eq, ?nodes, ?data, ?lists⟩
  case nodes =>
    intro origin kind fields location held
    cases normal.of_holds held with
    | node origin kind bare each located =>
        exact ⟨bare, located.null_or_record, located.exists_line origin kind _⟩
  case data =>
    intro members held entry listed
    cases normal.of_holds held with
    | record untyped each =>
        rw [nodeType?_data] at untyped
        exact (bne_iff_ne.mp (List.lookup_eq_none_iff.mp untyped entry listed)).symm
  case lists =>
    intro items held item listed
    cases normal.of_holds held with
    | list each => exact (each item listed).isTyped_eq_false

/-- A list of two parser objects: an identifier with metadata, a hidden member and a location
without columns, and an object whose type is not set. -/
def listedSource : Json :=
  .array
    [.object [("type", .text "Identifier"), ("name", .text "x"), ("_parent", .text "p"),
        ("range", .array []), ("loc", .object [("start", .object [("line", .scalar (.int 3))])])],
      .object [("type", .null), ("loc", .text "there")]]

def listedLocation : MixedTree :=
  .record [("start", .record [("line", .scalar (.int 3)), ("column", .null)])]

theorem listedSource_normal_form :
    converted .objects 0 listedSource =
        .list
          [.node ⟨0, [.item 0]⟩ "Identifier" [("name", .scalar (.text "x"))] listedLocation,
            .object ⟨0, [.item 1]⟩ [("type", .null), ("loc", .scalar (.text "there"))]] ∧
      (converted .objects 0 listedSource).convert ⟨1, []⟩ = converted .objects 0 listedSource ∧
      (∃ line, listedLocation.startLine? = some line ∧ line.toJson = .scalar (.int 3)) ∧
      isTyped (.object ⟨0, [.item 1]⟩ [("type", .null), ("loc", .scalar (.text "there"))]) =
        false := by
  obtain ⟨-, settled, nodes, -, lists⟩ := conversion_yields_normal_form .objects 0 listedSource
  have first := nodes _ _ _ listedLocation (.item (List.mem_cons_self ..) (.here _))
  have second := lists _ (.here _) _ (List.mem_cons_of_mem _ (List.mem_cons_self ..))
  exact ⟨rfl, settled ⟨1, []⟩, first.2.2, second⟩

end MixedTree

end PhpRendering
