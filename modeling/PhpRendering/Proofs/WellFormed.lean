import PhpRendering.Proofs.Spelling

/-!
# Well-formed trees

A tree is well-formed when its nodes are members of nodes or items of lists that are,
plain data hold no nodes, and the nodes that are respelled have the fields that they need.
Most nodes may still lack anything that their rules ask for.
-/

namespace PhpRendering

mutual

def Json.isPlain : Json → Bool
  | .scalar _ => true
  | .array items => itemsPlain items
  | .object members => (members.lookup "type").isNone && membersPlain members

def itemsPlain : List Json → Bool
  | [] => true
  | item :: rest => item.isPlain && itemsPlain rest

def membersPlain : List (String × Json) → Bool
  | [] => true
  | (_, value) :: rest => value.isPlain && membersPlain rest

end

/-- Whether an export exports something, and no imported binding. -/
def hasExportShape (node : Json) : Bool :=
  (!(node.member "declaration").isNull || !(node.member "specifiers").isNull) &&
    !(node.member "declaration").isOf "ImportSpecifier" &&
    match node.member "specifiers" with
    | .array items => items.all fun item => !item.isOf "ImportSpecifier"
    | _ => true

/-- Whether an imported binding has the fields `imported` and `local`, and no other
nodes. -/
def hasImportShape (members : List (String × Json)) : Bool :=
  let node := Json.object members
  (node.member "imported").isNode && (node.member "local").isNode &&
    ["id", "name", "value"].all (fun name => (node.member name).isNull) &&
    members.all fun entry =>
      (["imported", "local"] ++ metadataMembers).contains entry.1 || entry.2.isPlain

/-- Whether a node has the shape that its kind asks for, as far as names, operators,
spellings of literals, exports, imports and defaults of parameters go. -/
def hasShape (members : List (String × Json)) : Bool :=
  let node := Json.object members
  node.isNode &&
    ["operator", "raw"].all (fun name => (node.member name).isPlain) &&
    !(node.member "id").isOf "ImportSpecifier" && ((node.member "id").member "name").isScalar &&
    !exportKinds.any (node.member "callee").isOf &&
    (!node.isOf "Identifier" || (node.member "name").isScalar) &&
    (!(["Literal", "Punctuator"].any node.isOf) || (node.member "value").isPlain) &&
    (!node.isOf "AssignmentPattern" ||
      (node.member "left").isNode && (node.member "right").isNode) &&
    (!exportKinds.any node.isOf || hasExportShape node) &&
    (!node.isOf "ImportSpecifier" || hasImportShape members)

mutual

/-- Whether a value is plain or a well-formed node. A list in a list holds no nodes. -/
def Json.isWellFormed : Json → Bool
  | .scalar _ => true
  | .array items => itemsPlain items
  | .object members =>
      if (members.lookup "type").isSome then hasShape members && membersWellFormed members
      else membersPlain members

def itemsWellFormed : List Json → Bool
  | [] => true
  | item :: rest => item.isWellFormed && itemsWellFormed rest

def membersWellFormed : List (String × Json) → Bool
  | [] => true
  | (name, .array items) :: rest =>
      (metadataMembers.contains name || itemsWellFormed items) && membersWellFormed rest
  | (name, value) :: rest =>
      (metadataMembers.contains name || value.isWellFormed) && membersWellFormed rest

end

/-! ## Shapes -/

structure HasShape (members : List (String × Json)) : Prop where
  node : (Json.object members).isNode = true
  plain : ∀ name ∈ ["operator", "raw"], ((Json.object members).member name).isPlain = true
  id : ((Json.object members).member "id").isOf "ImportSpecifier" = false
  named : (((Json.object members).member "id").member "name").isScalar = true
  callee : exportKinds.any ((Json.object members).member "callee").isOf = false
  identifier : (Json.object members).isOf "Identifier" = true →
    ((Json.object members).member "name").isScalar = true
  valued : ["Literal", "Punctuator"].any (Json.object members).isOf = true →
    ((Json.object members).member "value").isPlain = true
  pattern : (Json.object members).isOf "AssignmentPattern" = true →
    ∀ name ∈ ["left", "right"], ((Json.object members).member name).isNode = true
  exported : exportKinds.any (Json.object members).isOf = true →
    hasExportShape (Json.object members) = true
  imported : (Json.object members).isOf "ImportSpecifier" = true → hasImportShape members = true

theorem HasShape.of_eq {members : List (String × Json)} (shape : hasShape members = true) :
    HasShape members := by
  have given {asked held : Bool} (either : (!asked || held) = true) (known : asked = true) :
      held = true := by
    rw [known] at either
    exact either
  unfold hasShape at shape
  simp only [Bool.and_eq_true] at shape
  obtain ⟨⟨⟨⟨⟨⟨⟨⟨⟨node, plain⟩, id⟩, named⟩, callee⟩, identifier⟩, valued⟩, pattern⟩, exported⟩, imported⟩ :=
    shape
  refine ⟨node, List.all_eq_true.mp plain, by simpa using id, named, by simpa using callee, given identifier,
    given valued, fun known => ?_, given exported, given imported⟩
  obtain ⟨left, right⟩ := Bool.and_eq_true_iff.mp (given pattern known)
  simp only [List.forall_mem_cons]
  exact ⟨left, right, List.forall_mem_nil _⟩

theorem Json.eq_null_of_isNull {value : Json} (nothing : value.isNull = true) : value = .null := by
  cases value with
  | scalar scalar =>
      cases scalar with
      | null => rfl
      | _ => cases nothing
  | array items => cases nothing
  | object members => cases nothing

/-- The names of an imported binding are nodes, and it has no other names. -/
theorem hasImportShape_names {members : List (String × Json)}
    (shape : hasImportShape members = true) :
    (∀ name ∈ ["imported", "local"], ((Json.object members).member name).isNode = true) ∧
      ∀ name ∈ ["id", "name", "value"], (Json.object members).member name = .null := by
  unfold hasImportShape at shape
  simp only [Bool.and_eq_true, List.all_eq_true] at shape
  obtain ⟨⟨⟨imported, bound⟩, nothing⟩, -⟩ := shape
  refine ⟨?_, fun name listed => Json.eq_null_of_isNull (nothing name listed)⟩
  simp only [List.forall_mem_cons]
  exact ⟨imported, bound, List.forall_mem_nil _⟩

/-- Apart from its two names an imported binding holds plain data. -/
theorem isPlain_of_hasImportShape {members : List (String × Json)}
    (shape : hasImportShape members = true) {name : String} (other : name ∉ ["imported", "local"])
    (field : metadataMembers.contains name = false) :
    ((Json.object members).member name).isPlain = true := by
  unfold hasImportShape at shape
  obtain ⟨-, each⟩ := Bool.and_eq_true_iff.mp shape
  rw [Json.member_object]
  cases found : members.lookup name with
  | none => rfl
  | some value =>
      obtain ⟨before, after, same, -⟩ := List.lookup_eq_some_iff.mp found
      have held : (name, value) ∈ members := by
        rw [same]
        exact List.mem_append_right _ (List.mem_cons_self ..)
      have plain := List.all_eq_true.mp each _ held
      have unlisted : (["imported", "local"] ++ metadataMembers).contains name = false := by
        rw [List.contains_eq_mem, decide_eq_false_iff_not, List.mem_append]
        rw [List.contains_eq_mem, decide_eq_false_iff_not] at field
        exact fun listed => listed.elim other field
      rw [unlisted, Bool.false_or] at plain
      exact plain

/-- What a well-formed object holds. -/
theorem Json.isWellFormed_node {members : List (String × Json)}
    (sound : (Json.object members).isWellFormed = true)
    (node : (Json.object members).isNode = true) :
    HasShape members ∧ membersWellFormed members = true := by
  have typed : (members.lookup "type").isSome = true := by
    cases found : members.lookup "type" with
    | some type => rfl
    | none =>
        unfold isNode kind? at node
        rw [member_object, found] at node
        cases node
  rw [Json.isWellFormed, if_pos typed] at sound
  obtain ⟨shape, below⟩ := Bool.and_eq_true_iff.mp sound
  exact ⟨.of_eq shape, below⟩

theorem Json.isPlain_of_not_isNode {members : List (String × Json)}
    (sound : (Json.object members).isWellFormed = true)
    (other : (Json.object members).isNode = false) : (Json.object members).isPlain = true := by
  cases found : members.lookup "type" with
  | some type =>
      rw [Json.isWellFormed, found, Option.isSome_some, if_pos rfl] at sound
      obtain ⟨shape, -⟩ := Bool.and_eq_true_iff.mp sound
      rw [(HasShape.of_eq shape).node] at other
      cases other
  | none =>
      rw [Json.isWellFormed, found, if_neg (by decide)] at sound
      rw [Json.isPlain, found, sound]
      rfl

def Json.isMember : Json → Bool
  | .array items => itemsWellFormed items
  | other => other.isWellFormed

/-- The members of a node, apart from what describes the source text. -/
theorem isMember_of_membersWellFormed {members : List (String × Json)}
    (sound : membersWellFormed members = true) {name : String}
    (field : metadataMembers.contains name = false) :
    ((Json.object members).member name).isMember = true := by
  induction members with
  | nil => rfl
  | cons entry rest ih =>
      obtain ⟨known, value⟩ := entry
      have split : (metadataMembers.contains known || value.isMember) = true ∧
          membersWellFormed rest = true := by
        rw [← Bool.and_eq_true_iff, ← sound]
        cases value <;> rfl
      rw [Json.member_object, List.lookup_cons]
      by_cases same : name = known
      · subst same
        rw [field, Bool.false_or] at split
        simpa using split.1
      · rw [beq_eq_false_iff_ne.mpr same]
        exact ih split.2

theorem isWellFormed_of_mem {items : List Json} (sound : itemsWellFormed items = true) :
    ∀ item ∈ items, item.isWellFormed = true := by
  induction items with
  | nil => exact List.forall_mem_nil _
  | cons item rest ih =>
      obtain ⟨first, later⟩ := Bool.and_eq_true_iff.mp sound
      exact List.forall_mem_cons.mpr ⟨first, ih later⟩

/-! ## Plain data -/

mutual

/-- Plain data are not respelled. -/
theorem Json.respelled_of_isPlain {value : Json} (plain : value.isPlain = true) :
    value.respelled = value := by
  cases value with
  | scalar value => rfl
  | array items => rw [Json.respelled, respelledItems_of_itemsPlain plain]
  | object members =>
      have other : (Json.object members).isNode = false := by
        obtain ⟨untyped, -⟩ := Bool.and_eq_true_iff.mp plain
        unfold Json.isNode Json.kind?
        rw [Json.member_object, Option.isNone_iff_eq_none.mp untyped]
        rfl
      rw [Json.respelled, if_neg (Bool.eq_false_iff.mp other)]

theorem respelledItems_of_itemsPlain {items : List Json} (plain : itemsPlain items = true) :
    respelledItems items = items := by
  cases items with
  | nil => rfl
  | cons item rest =>
      obtain ⟨first, later⟩ := Bool.and_eq_true_iff.mp plain
      rw [respelledItems, Json.respelled_of_isPlain first, respelledItems_of_itemsPlain later]

end

end PhpRendering
