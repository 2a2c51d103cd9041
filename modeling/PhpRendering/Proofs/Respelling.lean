import PhpRendering.Proofs.Spots

/-!
# Nodes in the two spellings

A node and its respelled counterpart resemble each other: a parent sees the same name, the
same line, and fields that correspond. Only the fields that are respelled differ, in the
nodes that have them.
-/

namespace PhpRendering

/-! ## Lists and plain data -/

theorem TreeForm.convertItems_length (form : TreeForm) (origin : Origin) (start : Nat)
    (items : List Json) : (form.convertItems origin start items).length = items.length := by
  induction items generalizing start with
  | nil => rfl
  | cons item rest ih => exact congrArg (· + 1) (ih (start + 1))

theorem TreeForm.convertItems_forall₂ {A : Value → Value → Prop} (form : TreeForm)
    (origin place : Origin) {items others : List Json} (length : items.length = others.length)
    (each : ∀ index item other, items[index]? = some item → others[index]? = some other →
      A (form.convert (origin.down (.item index)) item)
        (form.convert (place.down (.item index)) other)) :
    List.Forall₂ A (form.convertItems origin 0 items) (form.convertItems place 0 others) := by
  refine List.forall₂_iff_get.mpr
    ⟨by rw [form.convertItems_length, form.convertItems_length, length], fun index bound boundToo => ?_⟩
  have inside : index < items.length := form.convertItems_length origin 0 items ▸ bound
  have insideToo : index < others.length := length ▸ inside
  have held := List.getElem?_eq_getElem inside
  have heldToo := List.getElem?_eq_getElem insideToo
  have first := List.getElem?_eq_getElem bound
  have second := List.getElem?_eq_getElem boundToo
  rw [form.convert_item origin held] at first
  rw [form.convert_item place heldToo] at second
  rw [List.get_eq_getElem, List.get_eq_getElem, ← Option.some.inj first, ← Option.some.inj second]
  exact each index _ _ held heldToo

mutual

/-- Plain data are the same values wherever they stand. -/
theorem TreeForm.convert_data_of_isPlain (origin place : Origin) {value : Json}
    (plain : value.isPlain = true) :
    TreeForm.data.convert origin value = TreeForm.data.convert place value := by
  cases value with
  | scalar value => rfl
  | array items =>
      rw [TreeForm.convert, TreeForm.convert,
        TreeForm.convertItems_data_of_itemsPlain origin place 0 plain]
  | object members =>
      obtain ⟨untyped, below⟩ := Bool.and_eq_true_iff.mp plain
      simp only [TreeForm.convert, TreeForm.nodeType?, Option.isNone_iff_eq_none.mp untyped]
      rw [TreeForm.convertMembers_data_of_membersPlain origin place below]

theorem TreeForm.convertItems_data_of_itemsPlain (origin place : Origin) (start : Nat)
    {items : List Json} (plain : itemsPlain items = true) :
    TreeForm.data.convertItems origin start items = TreeForm.data.convertItems place start items := by
  cases items with
  | nil => rfl
  | cons item rest =>
      obtain ⟨first, later⟩ := Bool.and_eq_true_iff.mp plain
      rw [TreeForm.convertItems, TreeForm.convertItems,
        TreeForm.convert_data_of_isPlain _ (place.down (.item start)) first,
        TreeForm.convertItems_data_of_itemsPlain origin place (start + 1) later]

theorem TreeForm.convertMembers_data_of_membersPlain (origin place : Origin)
    {members : List (String × Json)} (plain : membersPlain members = true) :
    TreeForm.data.convertMembers origin members = TreeForm.data.convertMembers place members := by
  cases members with
  | nil => rfl
  | cons entry rest =>
      obtain ⟨name, value⟩ := entry
      obtain ⟨first, later⟩ := Bool.and_eq_true_iff.mp plain
      rw [TreeForm.convertMembers, TreeForm.convertMembers,
        TreeForm.convert_data_of_isPlain _ (place.down (.member name)) first,
        TreeForm.convertMembers_data_of_membersPlain origin place later]

end

mutual

/-- Plain data correspond to themselves. -/
theorem TreeForm.convert_alike_of_isPlain (form : TreeForm) (N : Node → Node → Prop)
    (origin place : Origin) {value : Json} (plain : value.isPlain = true) :
    (form.convert origin value).Alike N (form.convert place value) := by
  cases value with
  | scalar value => exact .scalar value
  | array items =>
      exact Value.Alike.list_iff.mpr (form.convertItems_alike_of_itemsPlain N origin place 0 plain)
  | object members =>
      obtain ⟨untyped, below⟩ := Bool.and_eq_true_iff.mp plain
      have none := Option.isNone_iff_eq_none.mp untyped
      cases form with
      | data =>
          simp only [TreeForm.convert, TreeForm.nodeType?, none]
          rw [TreeForm.convertMembers_data_of_membersPlain origin place below]
          exact .record _
      | objects =>
          simp only [TreeForm.convert, TreeForm.nodeType?, none]
          exact .foreign _ _

theorem TreeForm.convertItems_alike_of_itemsPlain (form : TreeForm) (N : Node → Node → Prop)
    (origin place : Origin) (start : Nat) {items : List Json} (plain : itemsPlain items = true) :
    List.Forall₂ (Value.Alike N) (form.convertItems origin start items)
      (form.convertItems place start items) := by
  cases items with
  | nil => exact .nil
  | cons item rest =>
      obtain ⟨first, later⟩ := Bool.and_eq_true_iff.mp plain
      exact .cons (form.convert_alike_of_isPlain N _ _ first)
        (form.convertItems_alike_of_itemsPlain N origin place (start + 1) later)

end

/-- Plain data are shown in the same way wherever they stand. -/
theorem TreeForm.shown_of_isPlain (form : TreeForm) (origin place : Origin) {value : Json}
    (plain : value.isPlain = true) :
    (form.convert origin value).shown = (form.convert place value).shown :=
  (form.convert_alike_of_isPlain (fun _ _ => False) origin place plain).shown_eq
    fun _ _ impossible => impossible.elim

/-! ## Counterparts -/

/-- Two nodes that are one well-formed object below a spot, in the two spellings. -/
inductive Node.Respelled (form : TreeForm) (root : Spot) : Node → Node → Prop where
  | intro {spot : Spot} (below : Spot.Below form root spot) (shape : HasShape spot.members)
      (sound : membersWellFormed spot.members = true) :
      Respelled form root (spot.oldNode form) (spot.newNode form)

section Members

variable {form : TreeForm} {root spot : Spot} (below : Spot.Below form root spot)
include below

/-- The counterpart of a child. -/
theorem Spot.Below.respelled {child : Spot} (inside : spot.Child form child)
    (sound : (Json.object child.members).isWellFormed = true) :
    Node.Respelled form root (child.oldNode form) (child.newNode form) := by
  obtain ⟨shape, members⟩ := Json.isWellFormed_node sound inside.isNode
  exact .intro (below.tail inside) shape members

/-- A child that is a value of its own. -/
theorem Spot.Below.value_alike {value : Json} {origin place : Origin} (sound : value.isWellFormed = true)
    (child : ∀ inner, value = .object inner → (Json.object inner).isNode = true →
      spot.Child form ⟨origin, place, inner⟩) :
    (form.convert origin value).Alike (Node.Respelled form root)
      (form.convert place value.respelled) := by
  cases value with
  | scalar value => exact .scalar value
  | array inner =>
      have plain : (Json.array inner).isPlain = true := sound
      rw [Json.respelled_of_isPlain plain]
      exact form.convert_alike_of_isPlain _ _ _ plain
  | object inner =>
      cases node : (Json.object inner).isNode with
      | false =>
          have plain := Json.isPlain_of_not_isNode sound node
          rw [Json.respelled_of_isPlain plain]
          exact form.convert_alike_of_isPlain _ _ _ plain
      | true =>
          rw [form.convert_object _ node, Spot.convert_respelled form _ node]
          exact .node (below.respelled (child inner rfl node) sound)

/-- A field of a node that is no imported binding and does not move defaults. -/
theorem Spot.Below.member_alike (shape : HasShape spot.members)
    (sound : membersWellFormed spot.members = true) {name : String} (kept : form.keeps name = true)
    (ordinary : (Json.object spot.members).isOf "ImportSpecifier" = false)
    (params : name ∈ ["params", "defaults"] → ownParams? spot.members = none) :
    ((spot.oldNode form).field name).Alike (Node.Respelled form root)
      ((spot.newNode form).field name) := by
  have field := Spot.not_metadata_of_keeps kept
  have member := isMember_of_membersWellFormed sound field
  rw [spot.oldNode_field kept, Spot.newNode_field_ordinary shape.node kept ordinary params]
  cases held : (Json.object spot.members).member name with
  | scalar value => exact .scalar value
  | array items =>
      rw [held] at member
      have each := isWellFormed_of_mem member
      rw [Json.respelled, Json.respelledItems_eq_map]
      refine Value.Alike.list_iff.mpr (form.convertItems_forall₂ _ _ (by simp) ?_)
      intro index item other place placeToo
      rw [List.getElem?_map, place] at placeToo
      cases placeToo
      refine below.value_alike (each item (List.mem_of_getElem? place)) fun inner same node => ?_
      subst same
      refine .item kept ordinary held place (fun same some => ?_) node
      rw [params (by rw [same]; decide)] at some
      cases some
  | object inner =>
      rw [held] at member
      refine below.value_alike member fun known same node => ?_
      cases same
      exact .member kept ordinary held node

/-- A field that the two spellings of a node have in common. -/
theorem Spot.Below.field_alike (shape : HasShape spot.members)
    (sound : membersWellFormed spot.members = true) {name : String}
    (params : name ∈ ["params", "defaults"] → ownParams? spot.members = none)
    (binding : (Json.object spot.members).isOf "ImportSpecifier" = true →
      name ∉ ["id", "name", "imported", "local"]) :
    ((spot.oldNode form).field name).Alike (Node.Respelled form root)
      ((spot.newNode form).field name) := by
  by_cases kept : form.keeps name
  · cases isImport : (Json.object spot.members).isOf "ImportSpecifier" with
    | false => exact below.member_alike shape sound kept isImport params
    | true =>
        have field := Spot.not_metadata_of_keeps kept
        have unlisted := binding isImport
        have plain := isPlain_of_hasImportShape (shape.imported isImport)
          (fun listed => unlisted (List.mem_cons_of_mem _ (List.mem_cons_of_mem _ listed))) field
        rw [spot.oldNode_field kept, Spot.newNode_field shape.node, if_pos kept,
          Json.member_respelled shape.node field params (fun listed => absurd listed unlisted),
          Json.respelled_of_isPlain plain]
        exact form.convert_alike_of_isPlain _ _ _ plain
  · unfold Spot.oldNode
    rw [TreeForm.nodeAt_field, Spot.newNode_field shape.node, if_neg kept, if_neg kept]
    exact .scalar _

end Members

namespace Node.Respelled

variable {form : TreeForm} {root : Spot} {node other : Node}

theorem kind_of_isNode {spot : Spot} (inside : (Json.object spot.members).isNode = true)
    (form : TreeForm) : (Json.object spot.members).kind? = some (spot.oldNode form).kind := by
  obtain ⟨kind, known⟩ := Option.isSome_iff_exists.mp inside
  unfold Spot.oldNode TreeForm.nodeAt
  rw [known]
  rfl

theorem isOf_iff_kind {spot : Spot} (inside : (Json.object spot.members).isNode = true)
    {kind : String} :
    (Json.object spot.members).isOf kind = true ↔ (spot.oldNode form).kind = kind := by
  rw [Json.isOf_iff, kind_of_isNode inside form, Option.some.injEq]

/-- A field that the two spellings have in common holds values that correspond. -/
theorem field_alike (respelled : Respelled form root node other) {name : String}
    (params : name ∉ ["params", "defaults"])
    (binding : node.kind = "ImportSpecifier" → name ∉ ["id", "name", "imported", "local"]) :
    (node.field name).Alike (Respelled form root) (other.field name) := by
  obtain @⟨spot, below, shape, sound⟩ := respelled
  exact below.field_alike shape sound (fun listed => absurd listed params)
    fun isImport => binding ((isOf_iff_kind shape.node).mp isImport)

/-! ## What parents see -/

/-- A respelled node has the same kind, unless it is an export. -/
theorem kind_eq (respelled : Respelled form root node other) :
    node.kind = other.kind ∨ node.kind ∈ exportKinds ∧ other.kind = "ExportDeclaration" := by
  obtain @⟨spot, below, shape, sound⟩ := respelled
  have known := kind_of_isNode shape.node form
  have kind := Json.kind?_respelled shape.node
  rw [Json.respelled_object shape.node] at kind
  unfold Spot.newNode TreeForm.nodeAt
  rw [kind]
  split
  · next exported =>
      obtain ⟨kind, listed, held⟩ := List.any_eq_true.mp exported
      rw [(isOf_iff_kind shape.node).mp held]
      exact .inr ⟨listed, rfl⟩
  · exact .inl rfl

theorem line_eq (respelled : Respelled form root node other) : node.line = other.line := by
  obtain @⟨spot, below, shape, sound⟩ := respelled
  have same : (respelledMembers (respelledBelow spot.members)).lookup "loc" =
      spot.members.lookup "loc" := by
    rw [lookup_respelledMembers, lookup_respelledBelow]
    · cases spot.members.lookup "loc" <;> rfl
    · exact fun same => absurd same (by decide)
    · exact fun listed => absurd listed (by decide)
    · exact fun listed => absurd listed (by decide)
  unfold Spot.oldNode Spot.newNode TreeForm.nodeAt Node.line TreeForm.location
  rw [same]

end Node.Respelled

/-! ## Imported bindings -/

section Imports

variable (form : TreeForm) {spot : Spot} (shape : HasShape spot.members)
  (isImport : (Json.object spot.members).isOf "ImportSpecifier" = true)
include shape isImport

theorem Spot.oldNode_import :
    (spot.oldNode form).field "imported" =
        form.convert (spot.old.down (.member "imported"))
          ((Json.object spot.members).member "imported") ∧
      (spot.oldNode form).field "local" =
        form.convert (spot.old.down (.member "local")) ((Json.object spot.members).member "local") ∧
      ∀ name ∈ ["id", "name", "value"], (spot.oldNode form).field name = .null := by
  have kept : ∀ name ∈ ["imported", "local", "id", "name", "value"], form.keeps name = true := by
    cases form <;> decide
  obtain ⟨-, nothing⟩ := hasImportShape_names (shape.imported isImport)
  unfold Spot.oldNode
  rw [TreeForm.nodeAt_field, TreeForm.nodeAt_field, if_pos (kept _ (by decide)),
    if_pos (kept _ (by decide))]
  refine ⟨rfl, rfl, fun name listed => ?_⟩
  rw [TreeForm.nodeAt_field, nothing name listed]
  exact ite_self _

theorem Spot.newNode_import :
    (spot.newNode form).field "id" =
        form.convert (spot.new.down (.member "id"))
          ((Json.object spot.members).member "imported").respelled ∧
      (spot.newNode form).field "name" =
        form.convert (spot.new.down (.member "name"))
          (((Json.object spot.members).member "local").respelled.otherName
            ((Json.object spot.members).member "imported").respelled) ∧
      (spot.newNode form).field "local" = .null ∧ (spot.newNode form).field "value" = .null := by
  have kept : ∀ name ∈ ["id", "name", "local"], form.keeps name = true := by
    cases form <;> decide
  have ordinary : (Json.object spot.members).respelled.member "value" = .null := by
    obtain ⟨-, nothing⟩ := hasImportShape_names (shape.imported isImport)
    rw [Json.member_respelled shape.node (by decide), nothing _ (by decide)]
    · rfl
    · exact fun listed => absurd listed (by decide)
    · exact fun listed => absurd listed (by decide)
  obtain ⟨id, name, bound⟩ := member_respelledImport isImport
  rw [Spot.newNode_field shape.node, Spot.newNode_field shape.node, Spot.newNode_field shape.node,
    Spot.newNode_field shape.node, if_pos (kept _ (by decide)), if_pos (kept _ (by decide)), id, name,
    bound, ordinary]
  exact ⟨rfl, rfl, ite_self _, ite_self _⟩

/-- An imported binding has no name of its own in either spelling. -/
theorem Spot.import_name_eq : (spot.oldNode form).name = "" ∧ (spot.newNode form).name = "" := by
  obtain ⟨nodes, -⟩ := hasImportShape_names (shape.imported isImport)
  obtain ⟨-, -, nothing⟩ := Spot.oldNode_import form shape isImport
  obtain ⟨-, name, -, value⟩ := Spot.newNode_import form shape isImport
  unfold Node.name
  rw [nothing _ (by decide), nothing _ (by decide), name, value]
  refine ⟨rfl, ?_⟩
  unfold Json.otherName
  split
  · rfl
  · obtain ⟨inner, held⟩ := Json.isObject_of_isNode (nodes "local" (by decide))
    have node := nodes "local" (by decide)
    rw [held] at node ⊢
    rw [Spot.convert_respelled form _ node]
    rfl

end Imports

namespace Node.Respelled

variable {form : TreeForm} {root : Spot} {node other : Node}

theorem name_eq (respelled : Respelled form root node other) : node.name = other.name := by
  have valued := respelled.field_alike (by decide : "value" ∉ _) fun _ => by decide
  by_cases isImport : node.kind = "ImportSpecifier"
  · obtain @⟨spot, below, shape, sound⟩ := respelled
    obtain ⟨old, new⟩ := Spot.import_name_eq form shape ((isOf_iff_kind shape.node).mpr isImport)
    rw [old, new]
  · have named := respelled.field_alike (by decide : "name" ∉ _) fun same => absurd same isImport
    unfold Node.name
    rw [named.isNull_eq]
    split
    · exact congrArg (Option.getD · "") valued.text?_eq
    · exact congrArg (Option.getD · "") named.text?_eq

end Node.Respelled

/-- A well-formed node has one name in both spellings, wherever it stands. -/
theorem TreeForm.convert_name_eq (form : TreeForm) (origin place : Origin) {value : Json}
    (sound : value.isWellFormed = true) (node : value.isNode = true) :
    (form.convert origin value).name = (form.convert place value.respelled).name := by
  obtain ⟨members, rfl⟩ := Json.isObject_of_isNode node
  obtain ⟨shape, below⟩ := Json.isWellFormed_node sound node
  rw [form.convert_object _ node, Spot.convert_respelled form _ node]
  have self : Node.Respelled form ⟨origin, place, members⟩ _ _ := .intro .refl shape below
  exact self.name_eq

/-! ## Resemblance -/

/-- What is converted to a node is one. -/
theorem TreeForm.isNode_of_convert {form : TreeForm} {origin : Origin} {value : Json} {node : Node}
    (sound : value.isMember = true) (converted : form.convert origin value = .node node) :
    ∃ members, value = .object members ∧ (Json.object members).isNode = true ∧
      node = form.nodeAt origin members := by
  cases value with
  | scalar value => cases converted
  | array items => cases converted
  | object members =>
      cases inside : (Json.object members).isNode with
      | true =>
          rw [form.convert_object _ inside] at converted
          cases converted
          exact ⟨members, rfl, inside, rfl⟩
      | false =>
          have plain := Json.isPlain_of_not_isNode sound inside
          have nothing := form.convert_alike_of_isPlain (fun _ _ => False) origin origin plain
          rw [converted] at nothing
          cases nothing with
          | node impossible => exact impossible.elim

namespace Node.Respelled

variable {form : TreeForm} {root : Spot}

theorem shown_eq {spot : Spot} (shape : HasShape spot.members) {name : String}
    (kept : form.keeps name = true) (plain : ((Json.object spot.members).member name).isPlain = true)
    (params : name ∉ ["params", "defaults"]) (binding : name ∉ ["id", "name", "imported", "local"]) :
    ((spot.oldNode form).field name).shown = ((spot.newNode form).field name).shown := by
  rw [spot.oldNode_field kept, Spot.newNode_field shape.node, if_pos kept,
    Json.member_respelled shape.node (Spot.not_metadata_of_keeps kept)
      (fun listed => absurd listed params) (fun listed => absurd listed binding),
    Json.respelled_of_isPlain plain]
  exact form.shown_of_isPlain _ _ plain

/-- The callee of a call keeps its kind. -/
theorem callee_kind_eq {spot : Spot} (shape : HasShape spot.members)
    (sound : membersWellFormed spot.members = true) {called calledToo : Node}
    (held : (spot.oldNode form).field "callee" = .node called)
    (heldToo : (spot.newNode form).field "callee" = .node calledToo) :
    called.kind = calledToo.kind := by
  have kept : form.keeps "callee" = true := by cases form <;> decide
  have field := Spot.not_metadata_of_keeps kept
  rw [spot.oldNode_field kept] at held
  obtain ⟨inner, callee, node, rfl⟩ := TreeForm.isNode_of_convert
    (isMember_of_membersWellFormed sound field) held
  have notExport := shape.callee
  rw [Spot.newNode_field shape.node, if_pos kept, Json.member_respelled shape.node field
    (fun listed => absurd listed (by decide)) (fun listed => absurd listed (by decide)), callee,
    Spot.convert_respelled form _ node] at heldToo
  cases heldToo
  have kind := Json.kind?_respelled node
  rw [Json.respelled_object node, ← callee, notExport, callee] at kind
  unfold TreeForm.nodeAt
  rw [kind]
  rfl

end Node.Respelled

open Node.Respelled in
/-- A tree and the respelled tree resemble each other. -/
theorem resembles_respelled (form : TreeForm) (root : Spot) :
    Resembles (Node.Respelled form root) where
  kind respelled := by
    rcases respelled.kind_eq with same | ⟨listed, kind⟩
    · exact .inl same
    · rw [kind]
      have table : ∀ kind ∈ exportKinds, Construct.ofKind? kind = some .exportDeclaration := by
        decide
      exact .inr ⟨table _ listed, by decide⟩
  line respelled := respelled.line_eq
  fields respelled name listed := by
    have apart : ∀ name ∈ facadeFields, name ∉ ["params", "defaults"] ∧
        name ∉ ["id", "name", "imported", "local"] := by decide
    exact respelled.field_alike (apart name listed).1 fun _ => (apart name listed).2
  name respelled := respelled.name_eq
  identifier respelled identifier := by
    refine respelled.field_alike (by decide) fun isImport => ?_
    rw [identifier] at isImport
    exact absurd isImport (by decide)
  shown respelled name listed := by
    obtain @⟨spot, below, shape, sound⟩ := respelled
    have kept : ∀ name ∈ shownFields, form.keeps name = true ∧ name ∈ ["operator", "raw"] ∧
        name ∉ ["params", "defaults"] ∧ name ∉ ["id", "name", "imported", "local"] := by
      cases form <;> decide
    obtain ⟨keeps, asked, params, binding⟩ := kept name listed
    exact shown_eq shape keeps (shape.plain name asked) params binding
  value respelled valued := by
    obtain @⟨spot, below, shape, sound⟩ := respelled
    refine shown_eq shape (by cases form <;> decide) (shape.valued ?_) (by decide) (by decide)
    exact List.any_eq_true.mpr ⟨_, valued, (isOf_iff_kind shape.node).mpr rfl⟩
  callee respelled held heldToo := by
    obtain @⟨spot, below, shape, sound⟩ := respelled
    exact callee_kind_eq shape sound held heldToo
  called respelled := respelled.field_alike (by decide) fun _ => by decide
  formed {node other} respelled construct known name listed := by
    have apart : name ∉ ["params", "defaults"] := by
      revert listed
      revert name
      cases construct <;> decide
    refine respelled.field_alike apart fun isImport => ?_
    rw [isImport] at known
    cases known
    cases listed
  places respelled respelledToo := by
    obtain @⟨spot, below, shape, sound⟩ := respelled
    obtain @⟨inner, belowToo, shapeToo, soundToo⟩ := respelledToo
    exact Bool.eq_iff_iff.mpr
      (beq_iff_eq.trans ((below.origin_eq_iff belowToo).trans beq_iff_eq.symm))

end PhpRendering
