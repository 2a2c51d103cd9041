import PhpRendering.Tree.Conversion

/-!
# The older spelling of trees

Three things were spelled differently in older syntax trees. There was one kind of node
for all exports, the defaults of parameters stood in a list of their own beside the
parameters, and an imported binding had the fields `id` and `name`. This module says how
a tree is respelled and what its nodes hold then: the respelled values, under the old
names unless the node is one of the three.
-/

namespace PhpRendering

namespace Json

def kind? (value : Json) : Option String :=
  (value.member "type").text?

def isOf (value : Json) (kind : String) : Bool :=
  value.kind? == some kind

def isNode (value : Json) : Bool :=
  value.kind?.isSome

def isScalar : Json → Bool
  | .scalar _ => true
  | _ => false

end Json

/-! ## Respelling -/

def exportKinds : List String :=
  ["ExportNamedDeclaration", "ExportDefaultDeclaration"]

def functionKinds : List String :=
  ["FunctionDeclaration", "FunctionExpression", "ArrowFunctionExpression"]

def withMember (name : String) (value : Json) (members : List (String × Json)) :
    List (String × Json) :=
  members.filter (fun entry => entry.1 != name) ++ [(name, value)]

/-- Whether a parameter is a pattern that brings a default for something simpler. -/
def Json.bringsDefault (param : Json) : Bool :=
  param.isOf "AssignmentPattern" && !(param.member "left").isOf "AssignmentPattern"

def Json.paramTarget (param : Json) : Json :=
  if param.bringsDefault then param.member "left" else param

def Json.paramDefault (param : Json) : Json :=
  if param.bringsDefault then param.member "right" else .null

def ownParams? (members : List (String × Json)) : Option (List Json) :=
  if functionKinds.any (Json.object members).isOf &&
      ((Json.object members).member "defaults").isNull then
    match (Json.object members).member "params" with
    | .array params => some params
    | _ => none
  else none

def Json.hasNameOf (first second : Json) : Bool :=
  match (first.member "name").text? with
  | some name => (second.member "name").text? == some name
  | none => false

def Json.otherName (bound imported : Json) : Json :=
  if bound.hasNameOf imported then .null else bound

def respelledImport (members : List (String × Json)) : List (String × Json) :=
  let imported := (Json.object members).member "imported"
  let bound := (Json.object members).member "local"
  let others := members.filter fun entry => !(["imported", "local"].contains entry.1)
  withMember "id" imported (withMember "name" (bound.otherName imported) others)

def respelledMembers (members : List (String × Json)) : List (String × Json) :=
  if exportKinds.any (Json.object members).isOf then
    withMember "type" (.text "ExportDeclaration") members
  else if (Json.object members).isOf "ImportSpecifier" then respelledImport members
  else
    match ownParams? members with
    | some params =>
        withMember "params" (.array (params.map Json.paramTarget))
          (withMember "defaults" (.array (params.map Json.paramDefault)) members)
    | none => members

mutual

/-- A tree in the older spelling. What describes the source text stays as it is, and so
do plain data. -/
def Json.respelled : Json → Json
  | .scalar value => .scalar value
  | .array items => .array (respelledItems items)
  | .object members =>
      if (Json.object members).isNode then .object (respelledMembers (respelledBelow members))
      else .object members

def respelledItems : List Json → List Json
  | [] => []
  | item :: rest => item.respelled :: respelledItems rest

def respelledBelow : List (String × Json) → List (String × Json)
  | [] => []
  | (name, value) :: rest =>
      (name, if metadataMembers.contains name then value else value.respelled) ::
        respelledBelow rest

end

/-! ## Members of respelled nodes -/

theorem Json.member_object (members : List (String × Json)) (name : String) :
    (Json.object members).member name = (members.lookup name).getD .null := rfl

theorem lookup_filter (kept : String → Bool) (members : List (String × Json)) (name : String) :
    (members.filter fun entry => kept entry.1).lookup name =
      if kept name then members.lookup name else none := by
  induction members with
  | nil => simp
  | cons entry rest ih =>
      obtain ⟨known, value⟩ := entry
      by_cases same : name = known
      · subst same
        cases keep : kept name with
        | true => simp [keep]
        | false => simpa [keep] using ih
      · have differs : (name == known) = false := beq_eq_false_iff_ne.mpr same
        cases keep : kept known with
        | true => simp [keep, List.lookup_cons, differs, ih]
        | false => simp [keep, List.lookup_cons, differs, ih]

theorem lookup_withMember (name : String) (value : Json) (members : List (String × Json))
    (wanted : String) :
    (withMember name value members).lookup wanted =
      if wanted = name then some value else members.lookup wanted := by
  unfold withMember
  rw [List.lookup_append, lookup_filter (· != name)]
  by_cases same : wanted = name
  · subst same
    simp
  · have differs : (wanted == name) = false := beq_eq_false_iff_ne.mpr same
    simp [same, differs, List.lookup_cons]

theorem lookup_respelledBelow (members : List (String × Json)) (name : String) :
    (respelledBelow members).lookup name =
      (members.lookup name).map fun value =>
        if metadataMembers.contains name then value else value.respelled := by
  induction members with
  | nil => rfl
  | cons entry rest ih =>
      obtain ⟨known, value⟩ := entry
      rw [respelledBelow, List.lookup_cons, List.lookup_cons, ih]
      by_cases same : name = known
      · subst same
        simp
      · have differs : (name == known) = false := beq_eq_false_iff_ne.mpr same
        simp [differs]

/-- The members of a node that are not respelled themselves keep their names. -/
theorem lookup_respelledMembers {members : List (String × Json)} {name : String}
    (type : name = "type" → exportKinds.any (Json.object members).isOf = false)
    (params : name ∈ ["params", "defaults"] → ownParams? members = none)
    (binding : name ∈ ["id", "name", "imported", "local"] →
      (Json.object members).isOf "ImportSpecifier" = false) :
    (respelledMembers members).lookup name = members.lookup name := by
  unfold respelledMembers
  split
  · next exported =>
      rw [lookup_withMember, if_neg]
      intro same
      rw [type same] at exported
      cases exported
  · split
    · next imported =>
        have other : name ∉ ["id", "name", "imported", "local"] := by
          intro listed
          rw [binding listed] at imported
          cases imported
        simp only [List.mem_cons, List.not_mem_nil, or_false, not_or] at other
        obtain ⟨notId, notName, notImported, notLocal⟩ := other
        have kept : (!(["imported", "local"].contains name)) = true := by
          simp [notImported, notLocal]
        unfold respelledImport
        rw [lookup_withMember, if_neg notId, lookup_withMember, if_neg notName,
          lookup_filter fun entry => !(["imported", "local"].contains entry), if_pos kept]
    · split
      · next known =>
          have other : name ∉ ["params", "defaults"] := by
            intro listed
            rw [params listed] at known
            cases known
          simp only [List.mem_cons, List.not_mem_nil, or_false, not_or] at other
          rw [lookup_withMember, if_neg other.1, lookup_withMember, if_neg other.2]
      · rfl

/-! ## What respelling keeps -/

namespace Json

theorem isOf_iff {value : Json} {kind : String} : value.isOf kind = true ↔ value.kind? = some kind :=
  beq_iff_eq

/-- A node is of one kind. -/
theorem eq_of_isOf {value : Json} {kind other : String} (known : value.isOf kind = true)
    (also : value.isOf other = true) : kind = other :=
  Option.some.inj ((isOf_iff.mp known).symm.trans (isOf_iff.mp also))

theorem not_isOf_of_ne {value : Json} {kind other : String} (known : value.isOf kind = true)
    (different : kind ≠ other) : value.isOf other = false :=
  Bool.eq_false_iff.mpr fun also => different (eq_of_isOf known also)

/-- A node of a listed kind is of no kind of another list. -/
theorem not_any_isOf {value : Json} {kinds others : List String}
    (known : kinds.any value.isOf = true) (apart : ∀ kind ∈ kinds, kind ∉ others) :
    others.any value.isOf = false := by
  obtain ⟨kind, listed, held⟩ := List.any_eq_true.mp known
  refine Bool.eq_false_iff.mpr fun also => ?_
  obtain ⟨other, listedToo, heldToo⟩ := List.any_eq_true.mp also
  exact apart kind listed (eq_of_isOf held heldToo ▸ listedToo)

theorem isObject_of_isNode {value : Json} (node : value.isNode = true) :
    ∃ members, value = .object members := by
  cases value with
  | object members => exact ⟨members, rfl⟩
  | scalar value => cases node
  | array items => cases node

theorem isNode_of_isOf {value : Json} {kind : String} (known : value.isOf kind = true) :
    value.isNode = true := by
  unfold isNode
  rw [isOf_iff.mp known]
  rfl

theorem respelled_object {members : List (String × Json)}
    (node : (Json.object members).isNode = true) :
    (Json.object members).respelled = .object (respelledMembers (respelledBelow members)) := by
  rw [Json.respelled, if_pos node]

theorem isNull_respelled (value : Json) : value.respelled.isNull = value.isNull := by
  cases value with
  | scalar value => rfl
  | array items => rfl
  | object members =>
      rw [Json.respelled]
      split <;> rfl

theorem kind?_below (members : List (String × Json)) :
    (Json.object (respelledBelow members)).kind? = (Json.object members).kind? := by
  unfold kind?
  rw [member_object, member_object, lookup_respelledBelow]
  cases members.lookup "type" <;> rfl

theorem isOf_below (members : List (String × Json)) :
    (Json.object (respelledBelow members)).isOf = (Json.object members).isOf := by
  unfold isOf
  rw [kind?_below]

theorem member_below (members : List (String × Json)) {name : String}
    (field : metadataMembers.contains name = false) :
    (Json.object (respelledBelow members)).member name =
      ((Json.object members).member name).respelled := by
  rw [member_object, member_object, lookup_respelledBelow]
  cases members.lookup name with
  | none => rfl
  | some value => simp only [Option.map_some, Option.getD_some, field, Bool.false_eq_true, if_false]

theorem respelledItems_eq_map (items : List Json) :
    respelledItems items = items.map Json.respelled := by
  induction items with
  | nil => rfl
  | cons item rest ih => rw [respelledItems, List.map_cons, ih]

theorem ownParams?_below (members : List (String × Json)) :
    ownParams? (respelledBelow members) = (ownParams? members).map (List.map Json.respelled) := by
  unfold ownParams?
  rw [isOf_below, member_below members (by decide), member_below members (by decide),
    isNull_respelled]
  split
  · cases (Json.object members).member "params" with
    | scalar value => rfl
    | array items =>
        rw [Json.respelled, respelledItems_eq_map]
        rfl
    | object inner =>
        by_cases node : (Json.object inner).isNode
        · rw [Json.respelled, if_pos node]
          rfl
        · rw [Json.respelled, if_neg node]
          rfl
  · rfl

/-- A respelled node has the kind that it had, unless it is an export. -/
theorem kind?_respelled {members : List (String × Json)}
    (node : (Json.object members).isNode = true) :
    (Json.object members).respelled.kind? =
      if exportKinds.any (Json.object members).isOf then some "ExportDeclaration"
      else (Json.object members).kind? := by
  rw [respelled_object node]
  split
  · next exported =>
      unfold respelledMembers
      rw [isOf_below, if_pos exported]
      unfold kind?
      rw [member_object, lookup_withMember, if_pos rfl]
      rfl
  · next other =>
      rw [← kind?_below members]
      unfold kind?
      rw [member_object, member_object, lookup_respelledMembers]
      · intro _
        rw [isOf_below]
        exact Bool.eq_false_iff.mpr other
      · intro listed
        exact absurd listed (by decide)
      · intro listed
        exact absurd listed (by decide)

theorem isOf_respelled (value : Json) {kind : String} (plain : kind ∉ exportKinds)
    (other : kind ≠ "ExportDeclaration") : value.respelled.isOf kind = value.isOf kind := by
  cases value with
  | scalar value => rfl
  | array items => rfl
  | object members =>
      cases node : (Json.object members).isNode with
      | false => rw [Json.respelled, if_neg (Bool.eq_false_iff.mp node)]
      | true =>
          unfold isOf
          rw [kind?_respelled node]
          split
          · next exported =>
              have unlisted : (Json.object members).isOf kind = false := by
                refine Bool.eq_false_iff.mpr fun known => ?_
                obtain ⟨named, listed, held⟩ := List.any_eq_true.mp exported
                exact plain (eq_of_isOf held known ▸ listed)
              unfold isOf at unlisted
              rw [unlisted]
              exact beq_eq_false_iff_ne.mpr fun same => other (Option.some.inj same).symm
          · rfl

theorem isNode_respelled (value : Json) : value.respelled.isNode = value.isNode := by
  cases value with
  | scalar value => rfl
  | array items => rfl
  | object members =>
      cases node : (Json.object members).isNode with
      | false => rw [Json.respelled, if_neg (Bool.eq_false_iff.mp node), node]
      | true =>
          unfold isNode
          rw [kind?_respelled node]
          split
          · rfl
          · exact node

/-- The members of a node that are not respelled themselves hold respelled values. -/
theorem member_respelled {members : List (String × Json)}
    (node : (Json.object members).isNode = true) {name : String}
    (field : metadataMembers.contains name = false)
    (params : name ∈ ["params", "defaults"] → ownParams? members = none)
    (binding : name ∈ ["id", "name", "imported", "local"] →
      (Json.object members).isOf "ImportSpecifier" = false) :
    (Json.object members).respelled.member name =
      ((Json.object members).member name).respelled := by
  have notType : name ≠ "type" := by
    rintro rfl
    exact absurd field (by decide)
  rw [respelled_object node, ← member_below members field, member_object, member_object,
    lookup_respelledMembers]
  · exact fun type => absurd type notType
  · intro listed
    rw [ownParams?_below, params listed]
    rfl
  · intro listed
    rw [isOf_below]
    exact binding listed

end Json

/-! ## Imported bindings -/

/-- The names of an imported binding in the older spelling. -/
theorem member_respelledImport {members : List (String × Json)}
    (isImport : (Json.object members).isOf "ImportSpecifier" = true) :
    (Json.object members).respelled.member "id" =
        ((Json.object members).member "imported").respelled ∧
      (Json.object members).respelled.member "name" =
        ((Json.object members).member "local").respelled.otherName
          ((Json.object members).member "imported").respelled ∧
      (Json.object members).respelled.member "local" = .null := by
  have notExport : exportKinds.any (Json.object members).isOf = false := by
    refine Bool.eq_false_iff.mpr fun exported => ?_
    obtain ⟨kind, listed, held⟩ := List.any_eq_true.mp exported
    rw [Json.eq_of_isOf held isImport] at listed
    exact absurd listed (by decide)
  have respelled : respelledMembers (respelledBelow members) =
      respelledImport (respelledBelow members) := by
    unfold respelledMembers
    rw [Json.isOf_below, if_neg (Bool.eq_false_iff.mp notExport), if_pos isImport]
  have imported := Json.member_below members (by decide : metadataMembers.contains "imported" = false)
  have bound := Json.member_below members (by decide : metadataMembers.contains "local" = false)
  rw [Json.respelled_object (Json.isNode_of_isOf isImport), respelled]
  unfold respelledImport
  dsimp only
  rw [imported, bound]
  simp only [Json.member_object, lookup_withMember,
    lookup_filter fun entry => !(["imported", "local"].contains entry)]
  exact ⟨rfl, rfl, rfl⟩

/-! ## Parameters -/

namespace Json

variable {param : Json}

theorem bringsDefault_shape (brings : param.bringsDefault = true) :
    param.isOf "AssignmentPattern" = true ∧
      (param.member "left").isOf "AssignmentPattern" = false := by
  simpa [bringsDefault] using brings

/-- The sides of a pattern are respelled where they stand. -/
theorem pattern_respelled (pattern : param.isOf "AssignmentPattern" = true) {name : String}
    (side : name ∈ ["left", "right"]) : param.respelled.member name = (param.member name).respelled := by
  obtain ⟨members, rfl⟩ := isObject_of_isNode (isNode_of_isOf pattern)
  refine member_respelled (isNode_of_isOf pattern) ?_ ?_ ?_
  · revert name
    decide
  · intro listed
    exact absurd side (by revert name; decide)
  · intro _
    exact not_isOf_of_ne pattern (by decide)

theorem bringsDefault_respelled (param : Json) :
    param.respelled.bringsDefault = param.bringsDefault := by
  unfold bringsDefault
  rw [isOf_respelled param (by decide) (by decide)]
  cases pattern : param.isOf "AssignmentPattern" with
  | false => rfl
  | true =>
      rw [pattern_respelled pattern (by decide), isOf_respelled _ (by decide) (by decide)]

theorem paramTarget_respelled (param : Json) :
    param.respelled.paramTarget = param.paramTarget.respelled := by
  unfold paramTarget
  rw [bringsDefault_respelled]
  split
  · next brings => exact pattern_respelled (bringsDefault_shape brings).1 (by decide)
  · rfl

theorem paramDefault_respelled (param : Json) :
    param.respelled.paramDefault = param.paramDefault.respelled := by
  unfold paramDefault
  rw [bringsDefault_respelled]
  split
  · next brings => exact pattern_respelled (bringsDefault_shape brings).1 (by decide)
  · rfl

end Json

section Parameters

variable {members : List (String × Json)} {params : List Json} (own : ownParams? members = some params)
include own

theorem ownParams?_shape : functionKinds.any (Json.object members).isOf = true ∧
    ((Json.object members).member "defaults").isNull = true ∧
    (Json.object members).member "params" = .array params := by
  unfold ownParams? at own
  split at own
  · next known =>
      obtain ⟨function, nothing⟩ := Bool.and_eq_true_iff.mp known
      split at own
      · next listed =>
          cases own
          exact ⟨function, nothing, listed⟩
      · cases own
  · cases own

/-- The defaults of the parameters of a function in a list of their own. -/
theorem member_respelledParams :
    (Json.object members).respelled.member "params" =
        .array (params.map fun param => param.paramTarget.respelled) ∧
      (Json.object members).respelled.member "defaults" =
        .array (params.map fun param => param.paramDefault.respelled) := by
  obtain ⟨function, -, -⟩ := ownParams?_shape own
  obtain ⟨kind, listed, known⟩ := List.any_eq_true.mp function
  have notExport : exportKinds.any (Json.object members).isOf = false :=
    Json.not_any_isOf function (by decide)
  have notImport : (Json.object members).isOf "ImportSpecifier" = false :=
    Json.not_isOf_of_ne known fun same => absurd listed (same ▸ by decide)
  have below : ownParams? (respelledBelow members) = some (params.map Json.respelled) := by
    rw [Json.ownParams?_below, own]
    rfl
  have respelled : respelledMembers (respelledBelow members) =
      withMember "params" (.array ((params.map Json.respelled).map Json.paramTarget))
        (withMember "defaults" (.array ((params.map Json.respelled).map Json.paramDefault))
          (respelledBelow members)) := by
    unfold respelledMembers
    rw [Json.isOf_below, if_neg (Bool.eq_false_iff.mp notExport),
      if_neg (Bool.eq_false_iff.mp notImport), below]
  rw [Json.respelled_object (Json.isNode_of_isOf known), respelled]
  simp only [Json.member_object, lookup_withMember, List.map_map, Function.comp_def,
    Json.paramTarget_respelled, Json.paramDefault_respelled]
  exact ⟨rfl, rfl⟩

end Parameters

end PhpRendering
