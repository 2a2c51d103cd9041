import PhpRendering.Proofs.Respelling

/-!
# Rules in the two spellings

The rules of functions, exports and imports read either spelling. A default that comes
with the pattern of its parameter and one from the list of defaults make the same
assignment, exports of all kinds have one rule, and a binding is found under both of its
names. So a tree and the respelled tree render alike.
-/

namespace PhpRendering

/-! ## Parameters -/

/-- A parameter, and what stands for it among the parameters and the defaults of the
respelled function. -/
inductive Value.ParamLike (N : Node → Node → Prop) (item target default : Value) : Prop where
  | stays (alike : item.Alike N target) (nothing : default = .null)
  | moves {pattern left leftToo right rightToo : Node} (held : item = .node pattern)
      (kind : pattern.kind = "AssignmentPattern") (leftSide : pattern.field "left" = .node left)
      (rightSide : pattern.field "right" = .node right) (heldToo : target = .node leftToo)
      (plain : leftToo.kind ≠ "AssignmentPattern") (given : default = .node rightToo)
      (targets : N left leftToo) (defaults : N right rightToo)

/-- The parameters and defaults of two functions that correspond. Either both functions
have them in the same places, or the first one has no list of defaults. -/
inductive Value.ParamsLike (N : Node → Node → Prop) (params defaults paramsToo defaultsToo : Value) :
    Prop where
  | same (alike : params.Alike N paramsToo) (alikeToo : defaults.Alike N defaultsToo)
  | moved {items others given : List Value} (listed : params = .list items)
      (nothing : defaults = .null) (listedToo : paramsToo = .list others)
      (givenToo : defaultsToo = .list given) (length : items.length = others.length)
      (each : ∀ (index : Nat) (item other : Value), items[index]? = some item → others[index]? = some other →
        item.ParamLike N other (given[index]?.getD .null))

namespace Node.Respelled

variable {form : TreeForm} {root : Spot} {node other : Node}

theorem kind_of_isOf {origin : Origin} {members : List (String × Json)} {kind : String}
    (known : (Json.object members).isOf kind = true) : (form.nodeAt origin members).kind = kind := by
  unfold TreeForm.nodeAt
  rw [Json.isOf_iff.mp known]
  rfl

/-- The sides of a well-formed pattern are well-formed nodes. -/
theorem side_of_pattern {members : List (String × Json)} (shape : HasShape members)
    (sound : membersWellFormed members = true)
    (pattern : (Json.object members).isOf "AssignmentPattern" = true) {name : String}
    (listed : name ∈ ["left", "right"]) :
    ∃ inner, (Json.object members).member name = .object inner ∧
      (Json.object inner).isNode = true ∧ (Json.object inner).isWellFormed = true := by
  have node := shape.pattern pattern name listed
  have fields : ∀ name ∈ ["left", "right"], metadataMembers.contains name = false := by decide
  have member := isMember_of_membersWellFormed sound (fields name listed)
  obtain ⟨inner, held⟩ := Json.isObject_of_isNode node
  rw [held] at node member
  exact ⟨inner, held, node, member⟩

section Functions

variable {spot : Spot} (below : Spot.Below form root spot) {params : List Json}
  (own : ownParams? spot.members = some params)
include below own

/-- A parameter that brings a default. -/
theorem paramLike_of_brings {index : Nat} {param : Json} (place : params[index]? = some param)
    (sound : param.isWellFormed = true) (brings : param.bringsDefault = true) :
    (form.convert (Spot.paramAt spot.old index) param).ParamLike (Respelled form root)
      (form.convert (Spot.paramAt spot.new index) param.paramTarget.respelled)
      (form.convert (Spot.defaultAt spot.new index) param.paramDefault.respelled) := by
  have kept : form.keeps "left" = true ∧ form.keeps "right" = true := by cases form <;> decide
  obtain ⟨pattern, notPattern⟩ := Json.bringsDefault_shape brings
  have inside := Json.isNode_of_isOf pattern
  obtain ⟨members, rfl⟩ := Json.isObject_of_isNode inside
  obtain ⟨shape, soundBelow⟩ := Json.isWellFormed_node sound inside
  obtain ⟨left, leftHeld, leftNode, leftSound⟩ := side_of_pattern shape soundBelow pattern
    (by decide : "left" ∈ _)
  obtain ⟨right, rightHeld, rightNode, rightSound⟩ := side_of_pattern shape soundBelow pattern
    (by decide : "right" ∈ _)
  have targets := below.respelled (.target own place brings leftHeld leftNode) leftSound
  have defaults := below.respelled (.default own place brings rightHeld rightNode) rightSound
  unfold Json.paramTarget Json.paramDefault
  rw [if_pos brings, if_pos brings, leftHeld, rightHeld, form.convert_object _ inside,
    Spot.convert_respelled form _ leftNode, Spot.convert_respelled form _ rightNode]
  refine .moves rfl (kind_of_isOf pattern) (TreeForm.nodeAt_field_node kept.1 leftHeld leftNode)
    (TreeForm.nodeAt_field_node kept.2 rightHeld rightNode) rfl ?_ rfl targets defaults
  rw [leftHeld] at notPattern
  intro same
  rcases targets.kind_eq with kind | ⟨-, exported⟩
  · have isPattern := (isOf_iff_kind leftNode).mpr (kind.trans same)
    rw [notPattern] at isPattern
    cases isPattern
  · exact absurd (exported.symm.trans same) (by decide)

/-- The parameters of a function without a list of defaults. -/
theorem paramsLike_of_own (shape : HasShape spot.members)
    (sound : membersWellFormed spot.members = true) :
    ((spot.oldNode form).field "params").ParamsLike (Respelled form root)
      ((spot.oldNode form).field "defaults") ((spot.newNode form).field "params")
      ((spot.newNode form).field "defaults") := by
  have kept : form.keeps "params" = true ∧ form.keeps "defaults" = true := by
    cases form <;> decide
  obtain ⟨function, nothing, listed⟩ := ownParams?_shape own
  obtain ⟨kind, known, isOf⟩ := List.any_eq_true.mp function
  have ordinary : (Json.object spot.members).isOf "ImportSpecifier" = false :=
    Json.not_isOf_of_ne isOf fun same => absurd known (same ▸ by decide)
  have none : (spot.oldNode form).field "defaults" = .null := by
    rw [spot.oldNode_field kept.2, Json.eq_null_of_isNull nothing]
    rfl
  have member := isMember_of_membersWellFormed sound (Spot.not_metadata_of_keeps kept.1)
  rw [listed] at member
  have each := isWellFormed_of_mem member
  obtain ⟨targets, defaults⟩ := Spot.newNode_params shape.node own
  refine .moved (Spot.oldNode_params own) none targets defaults ?_ ?_
  · rw [TreeForm.convertItems_length, TreeForm.convertItems_length, List.length_map]
  · intro index item other place placeToo
    rw [TreeForm.convertItems_getElem?, Nat.zero_add] at place placeToo
    obtain ⟨param, found, rfl⟩ := Option.map_eq_some_iff.mp place
    rw [List.getElem?_map, found] at placeToo
    cases placeToo
    have given : (params.map fun param => param.paramDefault.respelled)[index]? =
        some param.paramDefault.respelled := by
      rw [List.getElem?_map, found]
      rfl
    have soundParam := each param (List.mem_of_getElem? found)
    rw [form.convert_item _ given]
    cases brings : param.bringsDefault with
    | true => exact paramLike_of_brings below own found soundParam brings
    | false =>
        have target : param.paramTarget = param := by simp [Json.paramTarget, brings]
        have default : param.paramDefault = .null := by simp [Json.paramDefault, brings]
        dsimp only
        rw [target, default]
        refine .stays (below.value_alike soundParam fun inner same node => ?_) rfl
        subst same
        exact .item kept.1 ordinary listed found (fun _ _ => brings) node

end Functions

/-- The parameters of a node and of its counterpart. -/
theorem paramsLike (respelled : Respelled form root node other) :
    (node.field "params").ParamsLike (Respelled form root) (node.field "defaults")
      (other.field "params") (other.field "defaults") := by
  obtain @⟨spot, below, shape, sound⟩ := respelled
  cases own : ownParams? spot.members with
  | some params => exact paramsLike_of_own below own shape sound
  | none =>
      exact .same
        (below.field_alike shape sound (fun _ => own) fun _ => by decide)
        (below.field_alike shape sound (fun _ => own) fun _ => by decide)

end Node.Respelled

/-- The parameters of a copy are those of the node. -/
theorem Node.Twin.paramsLike {N : Node → Node → Prop} {node other : Node}
    (all : ∀ {node other}, N node other → (node.field "params").ParamsLike N (node.field "defaults")
      (other.field "params") (other.field "defaults")) (twin : Node.Twin N node other) :
    (node.field "params").ParamsLike N (node.field "defaults") (other.field "params")
      (other.field "defaults") := by
  induction twin with
  | base related => exact all related
  | call _ ih => exact ih
  | declaration _ name ih =>
      have params (function : Node) :=
        Rule.asDeclaration_field (by decide : "params" ≠ "id") function name
      have defaults (function : Node) :=
        Rule.asDeclaration_field (by decide : "defaults" ≠ "id") function name
      rw [params, params, defaults, defaults]
      exact ih
  | identifier _ name _ => exact .same (.scalar _) (.scalar _)
  | assignment _ _ _ _ => exact .same (.scalar _) (.scalar _)

/-- Two tasks for values that correspond, wherever the values come from. -/
inductive Task.Counterpart (N : Node → Node → Prop) : Task → Task → Prop where
  | visit (source other : Source) {value counterpart : Value} {position place : Position}
      (alike : value.Alike (Node.Twin N) counterpart)
      (places : Position.SameFor value position place) :
      Counterpart N (.visit source value position) (.visit other counterpart place)
  | enter {function other : Node} (related : Node.Twin N function other)
      (declared : function.kind = "FunctionDeclaration") :
      Counterpart N (.enter function) (.enter other)

theorem Task.Alike.counterpart {N : Node → Node → Prop} {task other : Task}
    (alike : task.Alike N other) : task.Counterpart N other := by
  cases alike with
  | visit source alike places => exact .visit source source alike places
  | enter related declared => exact .enter related declared

/-- Lists whose items correspond at each position. -/
theorem forall₂_of_getElem? {α β : Type} {A : α → β → Prop} {items : List α} {others : List β}
    (length : items.length = others.length)
    (each : ∀ (index : Nat) (item : α) (other : β), items[index]? = some item →
      others[index]? = some other → A item other) : List.Forall₂ A items others :=
  List.forall₂_iff_get.mpr ⟨length, fun index bound boundToo =>
    each index _ _ (List.getElem?_eq_getElem bound) (List.getElem?_eq_getElem boundToo)⟩

theorem forall₂_zipIdx_of_getElem? {α β : Type} {A : α × Nat → β × Nat → Prop} {items : List α}
    {others : List β} (length : items.length = others.length)
    (each : ∀ index item other, items[index]? = some item → others[index]? = some other →
      A (item, index) (other, index)) : List.Forall₂ A items.zipIdx others.zipIdx := by
  refine forall₂_of_getElem? (by simp [length]) fun index item other place placeToo => ?_
  rw [List.getElem?_zipIdx, Nat.zero_add] at place placeToo
  obtain ⟨first, held, rfl⟩ := Option.map_eq_some_iff.mp place
  obtain ⟨second, heldToo, rfl⟩ := Option.map_eq_some_iff.mp placeToo
  exact each index first second held heldToo

theorem forall₂_getElem? {α β : Type} {A : α → β → Prop} {items : List α} {others : List β}
    (all : List.Forall₂ A items others) {index : Nat} {item : α} {other : β}
    (place : items[index]? = some item) (placeToo : others[index]? = some other) : A item other := by
  induction all generalizing index with
  | nil => cases place
  | cons first _ ih =>
      cases index with
      | zero =>
          cases place
          cases placeToo
          exact first
      | succ index => exact ih place placeToo

theorem Rule.defaults_of_null {function : Node} (nothing : function.field "defaults" = .null) :
    Rule.defaults function = .list [] := by
  unfold Rule.defaults Node.flag
  rw [nothing]
  rfl

theorem Rule.defaults_itemAt {function : Node} {given : List Value}
    (listed : function.field "defaults" = .list given) (index : Nat) :
    (Rule.defaults function).itemAt index = .ok (given[index]?.getD .null) := by
  unfold Rule.defaults Node.flag
  rw [listed]
  cases given with
  | nil => rfl
  | cons first rest => rfl

namespace Layout.Like

variable {N : Node → Node → Prop} {node other : Node} (like : Resembles N)
  (twin : Node.Twin N node other) (kind : node.kind = other.kind)
include like twin kind

/-- A parameter of a function without a list of defaults, and what stands for it in the
respelled function: both make the same assignment. -/
theorem movedParameter {item target : Value} {given : List Value} {index : Nat}
    (nothing : node.field "defaults" = .null) (listed : other.field "defaults" = .list given)
    (param : item.ParamLike N target (given[index]?.getD .null)) :
    (Layout.parameter node item index).Like (Task.Counterpart N) (.parameter other target index) := by
  have old : (Rule.defaults node).itemAt index = .ok .null := by
    rw [Rule.defaults_of_null nothing]
    rfl
  have new := Rule.defaults_itemAt listed index
  cases param with
  | stays alike absent =>
      refine Layout.Like.parameter (fun _ _ paired => paired.alike.counterpart) like twin kind ?_ alike
      rw [old, new, absent]
      exact .ok (.scalar _)
  | moves held pattern left right heldToo plain default targets defaults =>
      subst held heldToo
      unfold Layout.parameter
      rw [old, new, default]
      simp only [Layout.shaped, Value.asNode, if_pos pattern, if_neg plain, Layout.needed, Node.require,
        Node.field?, left, right, Value.isNull, Bool.false_eq_true, if_false]
      refine .visit (.visit _ _ (.node (.assignment twin (.node targets) (.node defaults))) (.inl ?_))
      exact twin.within_eq like kind

/-- The parameters of corresponding functions. -/
theorem movedParameters (params : (node.field "params").ParamsLike N (node.field "defaults")
    (other.field "params") (other.field "defaults")) :
    (Layout.parameters node).Like (Task.Counterpart N) (.parameters other) := by
  cases params with
  | same alike alikeToo =>
      exact parameters (fun _ _ paired => paired.alike.counterpart) like twin kind alike alikeToo
  | moved listed nothing listedToo givenToo length each =>
      unfold Layout.parameters
      rw [Node.optionalItems_of_list listed, Node.optionalItems_of_list listedToo]
      refine separatedBy ", " ?_
      rw [List.forall₂_map_left_iff, List.forall₂_map_right_iff]
      refine forall₂_zipIdx_of_getElem? length fun index item target place placeToo => ?_
      exact movedParameter like twin kind nothing givenToo (each index item target place placeToo)

omit twin kind in
/-- Whether the parameters of corresponding functions are texts: one that is a pattern or has a
default is an assignment in either spelling. -/
theorem movedParametersYieldText_eq (params : (node.field "params").ParamsLike N
    (node.field "defaults") (other.field "params") (other.field "defaults")) :
    node.parametersYieldText = other.parametersYieldText := by
  cases params with
  | same alike alikeToo => exact parametersYieldText_eq like alike alikeToo
  | @moved items others given listed nothing listedToo givenToo length each =>
      unfold Node.parametersYieldText
      rw [Node.optionalItems_of_list listed, Node.optionalItems_of_list listedToo]
      have paired : List.Forall₂ (fun entry entryToo : Value × Nat =>
          entry.1.ParamLike N entryToo.1 (given[entry.2]?.getD .null) ∧ entry.2 = entryToo.2)
          items.zipIdx others.zipIdx :=
        forall₂_zipIdx_of_getElem? length fun index item target place placeToo =>
          ⟨each index item target place placeToo, rfl⟩
      refine all_eq_of_forall₂ paired ?_
      rintro ⟨item, index⟩ ⟨target, indexToo⟩ ⟨param, rfl⟩
      simp only [Rule.defaults_of_null nothing, Rule.defaults_itemAt givenToo]
      cases param with
      | stays alike absent =>
          rw [absent, alike.form_eq like.looksAlike.form_eq]
          rfl
      | moves held pattern left right heldToo plain default targets defaults =>
          subst held
          have form := Node.form_of_kind pattern (by decide)
          rw [default, Value.form, form]
          simp [Form.isText, Value.isNull]

end Layout.Like

/-! ## Imports -/

theorem TreeForm.convert_isNull (form : TreeForm) (origin : Origin) (value : Json) :
    (form.convert origin value).isNull = value.isNull := by
  cases value with
  | scalar value => cases value <;> rfl
  | array items => rfl
  | object members =>
      cases form with
      | data =>
          unfold TreeForm.convert
          split <;> rfl
      | objects =>
          unfold TreeForm.convert
          split <;> rfl

/-- Nodes that have the same name in a tree have it when they are converted. -/
theorem TreeForm.convert_name_of_hasNameOf (form : TreeForm) (origin place : Origin)
    {first second : Json} (node : first.isNode = true) (nodeToo : second.isNode = true)
    (same : first.hasNameOf second = true) :
    (form.convert origin first).name = (form.convert place second).name := by
  have named (origin : Origin) {members : List (String × Json)} {name : String}
      (text : ((Json.object members).member "name").text? = some name) :
      (form.nodeAt origin members).name = name := by
    have kept : form.keeps "name" = true := by cases form <;> decide
    unfold Json.text? at text
    split at text
    · next letters held =>
        cases text
        unfold Node.name
        rw [TreeForm.nodeAt_field, if_pos kept, held]
        rfl
    · cases text
  obtain ⟨members, rfl⟩ := Json.isObject_of_isNode node
  obtain ⟨others, rfl⟩ := Json.isObject_of_isNode nodeToo
  rw [form.convert_object _ node, form.convert_object _ nodeToo]
  unfold Json.hasNameOf at same
  split at same
  · next name text => exact (named origin text).trans (named place (beq_iff_eq.mp same)).symm
  · cases same

section Imports

variable (form : TreeForm) {spot : Spot} (shape : HasShape spot.members)
  (sound : membersWellFormed spot.members = true)
  (isImport : (Json.object spot.members).isOf "ImportSpecifier" = true)
include shape sound isImport

/-- The names of an imported binding are well-formed nodes. -/
theorem isWellFormed_of_import {name : String} (listed : name ∈ ["imported", "local"]) :
    ((Json.object spot.members).member name).isNode = true ∧
      ((Json.object spot.members).member name).isWellFormed = true := by
  have node := (hasImportShape_names (shape.imported isImport)).1 name listed
  have fields : ∀ name ∈ ["imported", "local"], metadataMembers.contains name = false := by decide
  have member := isMember_of_membersWellFormed sound (fields name listed)
  obtain ⟨inner, held⟩ := Json.isObject_of_isNode node
  rw [held] at node member ⊢
  exact ⟨node, member⟩

/-- The names of an imported binding in the two spellings. What it is called here is left
out of the older one when it is called what it is there. -/
theorem Spot.import_names : ∃ imported bound importedToo : Node,
    (spot.oldNode form).field "imported" = .node imported ∧
      (spot.oldNode form).field "local" = .node bound ∧
      (spot.newNode form).field "id" = .node importedToo ∧ imported.name = importedToo.name ∧
      ((spot.newNode form).field "name" = .null ∧ bound.name = imported.name ∨
        ∃ boundToo, (spot.newNode form).field "name" = .node boundToo ∧ bound.name = boundToo.name) := by
  obtain ⟨importedNode, importedSound⟩ := isWellFormed_of_import shape sound isImport
    (by decide : "imported" ∈ _)
  obtain ⟨boundNode, boundSound⟩ := isWellFormed_of_import shape sound isImport
    (by decide : "local" ∈ _)
  obtain ⟨imported, bound, -⟩ := Spot.oldNode_import form shape isImport
  obtain ⟨id, otherName, -, -⟩ := Spot.newNode_import form shape isImport
  generalize (Json.object spot.members).member "imported" = first at *
  generalize (Json.object spot.members).member "local" = second at *
  have firstName := form.convert_name_eq (spot.old.down (.member "imported"))
    (spot.new.down (.member "id")) importedSound importedNode
  have secondName := form.convert_name_eq (spot.old.down (.member "local"))
    (spot.new.down (.member "name")) boundSound boundNode
  have isNode := (Json.isNode_respelled first).trans importedNode
  have isNodeToo := (Json.isNode_respelled second).trans boundNode
  have sameName := form.convert_name_of_hasNameOf (spot.new.down (.member "name"))
    (spot.new.down (.member "id")) isNodeToo isNode
  obtain ⟨members, rfl⟩ := Json.isObject_of_isNode importedNode
  obtain ⟨others, rfl⟩ := Json.isObject_of_isNode boundNode
  rw [form.convert_object _ importedNode] at imported firstName
  rw [form.convert_object _ boundNode] at bound secondName
  rw [Spot.convert_respelled form _ importedNode] at id firstName sameName
  rw [Spot.convert_respelled form _ boundNode] at secondName sameName
  refine ⟨_, _, _, imported, bound, id, firstName, ?_⟩
  unfold Json.otherName at otherName
  split at otherName
  · next same => exact .inl ⟨otherName, secondName.trans ((sameName same).trans firstName.symm)⟩
  · rw [Spot.convert_respelled form _ boundNode] at otherName
    exact .inr ⟨_, otherName, secondName⟩

/-- Both spellings of an imported binding have one rule. -/
theorem Spot.imported_like (R : Task → Task → Prop) (position : Position) :
    (Layout.imported (spot.oldNode form) position).Like R
      (Layout.imported (spot.newNode form) position) := by
  obtain ⟨-, -, nothing⟩ := Spot.oldNode_import form shape isImport
  obtain ⟨-, -, absent, -⟩ := Spot.newNode_import form shape isImport
  obtain ⟨imported, bound, importedToo, held, heldBound, heldToo, sameName, called⟩ :=
    Spot.import_names form shape sound isImport
  have old : Rule.localBinding? (spot.oldNode form) = some (.node bound) := by
    simp [Rule.localBinding?, Node.field?, nothing "name" (by decide), heldBound, Value.isNull]
  have clause : Rule.aliasClause (Value.node importedToo).name (Rule.localBinding? (spot.oldNode form)) =
      Rule.aliasClause (Value.node importedToo).name (Rule.localBinding? (spot.newNode form)) := by
    rw [old]
    rcases called with ⟨noName, same⟩ | ⟨boundToo, named, same⟩
    · have new : Rule.localBinding? (spot.newNode form) = none := by
        simp [Rule.localBinding?, Node.field?, noName, absent, Value.isNull]
      rw [new]
      exact if_pos (same.trans sameName)
    · have new : Rule.localBinding? (spot.newNode form) = some (.node boundToo) := by
        simp [Rule.localBinding?, named]
      have value : (Value.node bound).name = (Value.node boundToo).name := same
      simp only [new, Rule.aliasClause, value]
  have self : Node.Respelled form spot _ _ := .intro .refl shape sound
  have kind : (spot.oldNode form).kind = (spot.newNode form).kind := by
    rcases self.kind_eq with same | ⟨exported, -⟩
    · exact same
    · rw [(Node.Respelled.isOf_iff_kind shape.node).mp isImport] at exported
      exact absurd exported (by decide)
  unfold Layout.imported Layout.optional Layout.needed Node.require Node.field?
  rw [nothing "id" (by decide), held, heldToo]
  refine .next ?_ ?_
  · unfold Layout.importedModule
    simp only [Node.missing, kind, self.line_eq]
    split
    · exact .stop _
    · exact .stop _
    · exact .stop _
    · exact .word _
  · have sameValue : (Value.node imported).name = (Value.node importedToo).name := sameName
    simp only [Value.isNull, if_true, Bool.false_eq_true, if_false]
    unfold Layout.useStatement
    rw [sameValue, clause]
    exact .word _

end Imports

/-! ## Exports -/

/-- The position below a node and the one below its counterpart: they may differ in the
module that is named. -/
theorem Position.within_of_alikeKinds {node other : Node} (kinds : AlikeKinds node.kind other.kind) :
    Position.within other =
      { Position.within node with importSource := (Position.within other).importSource } := by
  have statement := kinds.eq_iff (by decide : Construct.ofKind? "ExpressionStatement" ≠ _)
  have update := kinds.eq_iff (by decide : Construct.ofKind? "UpdateExpression" ≠ _)
  have same : (node.kind == "ExpressionStatement") = (other.kind == "ExpressionStatement") := by
    rw [Bool.eq_iff_iff, beq_iff_eq, beq_iff_eq]
    exact statement
  have sameToo : (node.kind == "UpdateExpression") = (other.kind == "UpdateExpression") := by
    rw [Bool.eq_iff_iff, beq_iff_eq, beq_iff_eq]
    exact update
  simp only [Position.within, same, sameToo]

/-- What is converted to an imported binding is one. -/
theorem TreeForm.kind_ne_of_convert {form : TreeForm} {origin : Origin} {value : Json} {node : Node}
    {kind : String} (sound : value.isMember = true) (plain : value.isOf kind = false)
    (converted : form.convert origin value = .node node) : node.kind ≠ kind := by
  obtain ⟨members, rfl, inside, rfl⟩ := TreeForm.isNode_of_convert sound converted
  intro same
  obtain ⟨known, kind⟩ := Option.isSome_iff_exists.mp inside
  unfold TreeForm.nodeAt at same
  rw [kind] at same
  rw [Json.isOf_iff.mpr (kind.trans (congrArg some same))] at plain
  cases plain

theorem Layout.needed_of_isNull {node : Node} {field : String} (next : Value → Layout)
    (something : (node.field field).isNull = false) :
    Layout.needed node field next = next (node.field field) := by
  unfold Layout.needed Node.require Node.field?
  simp only [something, Bool.false_eq_true, if_false]

section Exports

variable {form : TreeForm} {root spot : Spot} (below : Spot.Below form root spot)
  (shape : HasShape spot.members) (sound : membersWellFormed spot.members = true)
  (isExport : exportKinds.any (Json.object spot.members).isOf = true)
include shape sound isExport

/-- What an export declares is no imported binding. -/
theorem Spot.declaration_of_export {node : Node}
    (held : (spot.oldNode form).field "declaration" = .node node) :
    node.kind ≠ "ImportSpecifier" := by
  have kept : form.keeps "declaration" = true := by cases form <;> decide
  have member := isMember_of_membersWellFormed sound (Spot.not_metadata_of_keeps kept)
  have exported := shape.exported isExport
  unfold hasExportShape at exported
  simp only [Bool.and_eq_true] at exported
  rw [spot.oldNode_field kept] at held
  exact TreeForm.kind_ne_of_convert member (by simpa using exported.1.2) held

/-- The specifiers of an export are no imported bindings. -/
theorem Spot.specifiers_of_export {items : List Value} {node : Node}
    (listed : ((spot.oldNode form).field "specifiers").items = .ok items)
    (held : .node node ∈ items) : node.kind ≠ "ImportSpecifier" := by
  have kept : form.keeps "specifiers" = true := by cases form <;> decide
  have member := isMember_of_membersWellFormed sound (Spot.not_metadata_of_keeps kept)
  have exported := shape.exported isExport
  unfold hasExportShape at exported
  simp only [Bool.and_eq_true] at exported
  obtain ⟨-, plain⟩ := exported
  have list := Value.eq_list_of_items listed held
  rw [spot.oldNode_field kept] at list
  generalize (Json.object spot.members).member "specifiers" = specifiers at *
  cases specifiers with
  | scalar value => cases list
  | object members =>
      unfold TreeForm.convert at list
      split at list
      · cases list
      · cases form <;> cases list
  | array known =>
      cases list
      obtain ⟨index, place⟩ := List.getElem?_of_mem held
      rw [TreeForm.convertItems_getElem?] at place
      obtain ⟨item, found, converted⟩ := Option.map_eq_some_iff.mp place
      have listedItem := List.mem_of_getElem? found
      have plainItem := List.all_eq_true.mp plain item listedItem
      have soundItem := isWellFormed_of_mem member item listedItem
      cases item with
      | scalar value => cases converted
      | array inner => cases converted
      | object members =>
          have member : (Json.object members).isMember = true := soundItem
          exact TreeForm.kind_ne_of_convert member (by simpa using plainItem) converted

omit sound in
/-- An export without a declaration has specifiers. -/
theorem Spot.specifiers_isNull (nothing : ((spot.oldNode form).field "declaration").isNull = true) :
    ((spot.oldNode form).field "specifiers").isNull = false := by
  have kept : form.keeps "declaration" = true ∧ form.keeps "specifiers" = true := by
    cases form <;> decide
  have exported := shape.exported isExport
  unfold hasExportShape at exported
  simp only [Bool.and_eq_true] at exported
  obtain ⟨⟨either, -⟩, -⟩ := exported
  rw [spot.oldNode_field kept.1, form.convert_isNull] at nothing
  rw [spot.oldNode_field kept.2, form.convert_isNull]
  rw [nothing] at either
  simpa using either

include below

/-- Both spellings of an export have one rule. -/
theorem Spot.Below.exported_like :
    (Layout.exported (spot.oldNode form)).Like (Task.Counterpart (Node.Respelled form root))
      (Layout.exported (spot.newNode form)) := by
  have self : Node.Respelled form root (spot.oldNode form) (spot.newNode form) :=
    .intro below shape sound
  have declaration := self.field_alike (by decide : "declaration" ∉ _) fun _ => by decide
  have specifiers := self.field_alike (by decide : "specifiers" ∉ _) fun _ => by decide
  have within := Position.within_of_alikeKinds ((resembles_respelled form root).kind self)
  have forms {node other : Node} : Node.Respelled form root node other → node.form = other.form :=
    (resembles_respelled form root).looksAlike.form_eq
  have filled : ((spot.oldNode form).field "declaration").isNull = true →
      ((spot.oldNode form).field "specifiers").isNull = false :=
    Spot.specifiers_isNull shape isExport
  unfold Layout.exported Node.field?
  simp only [declaration.isNull_eq] at filled ⊢
  cases nothing : ((spot.newNode form).field "declaration").isNull with
  | false =>
      refine .wanting (congrArg Form.isText (declaration.form_eq forms)) (.next
        (.visit (.visit _ _ (declaration.mono fun _ _ => .base) (.inr ⟨⟨_, within⟩, ?_⟩)))
        (Layout.Like.asNode declaration fun _ _ _ _ _ => .word _))
      exact fun node held => Spot.declaration_of_export shape sound isExport held
  | true =>
      have something := filled nothing
      have somethingToo := specifiers.isNull_eq ▸ something
      simp only [if_true, Layout.needed_of_isNull _ something, Layout.needed_of_isNull _ somethingToo]
      refine .wanting (specifiers.itemsYieldText_eq forms) ?_
      refine Layout.Like.shaped specifiers.items fun items others listed _ all => .joined ?_
      rw [List.forall₂_map_left_iff, List.forall₂_map_right_iff]
      refine forall₂_zipIdx_of_getElem? all.length_eq fun index item other place placeToo => ?_
      have alike := forall₂_getElem? all place placeToo
      simp only [alike.isNull_eq]
      split
      · exact .word _
      · refine .visit (.visit _ _ (alike.mono fun _ _ => .base)
          (.inr ⟨⟨(Position.within (spot.newNode form)).importSource, ?_⟩, ?_⟩))
        · rw [all.length_eq]
          exact congrArg (fun place : Position =>
            { place with isLast := index + 1 == others.length }) within
        · rintro node rfl
          exact Spot.specifiers_of_export shape sound isExport listed (List.mem_of_getElem? place)

end Exports

/-! ## All nodes -/

theorem Construct.readFields_apart (construct : Construct) :
    ∀ name ∈ construct.readFields, name ∉ ["params", "defaults"] := by
  cases construct <;> decide

section Twins

variable {form : TreeForm} {root : Spot} {node other : Node}
  (twin : Node.Twin (Node.Respelled form root) node other)
include twin

/-- A copy has a field of the node unless the node is an imported binding. -/
theorem Node.Twin.field_respelled {name : String}
    (ordinary : name ∉ ["params", "defaults", "id", "name", "imported", "local"]) :
    (node.field name).Alike (Node.Twin (Node.Respelled form root)) (other.field name) := by
  simp only [List.mem_cons, List.not_mem_nil, or_false, not_or] at ordinary
  obtain ⟨params, defaults, id, named, imported, bound⟩ := ordinary
  refine (twin.field id fun respelled => respelled.field_alike ?_ fun _ => ?_).mono fun _ _ => .base
  · simp [params, defaults]
  · simp [id, named, imported, bound]

/-- What the rule of a node reads, unless it is an imported binding. -/
theorem Node.Twin.read_respelled (ordinary : node.kind ≠ "ImportSpecifier") {construct : Construct}
    (known : Construct.ofKind? node.kind = some construct) {name : String}
    (read : name ∈ construct.readFields) :
    (node.field name).Alike (Node.Twin (Node.Respelled form root)) (other.field name) := by
  cases twin with
  | base respelled =>
      have alike := respelled.field_alike (construct.readFields_apart name read) fun isImport =>
        absurd isImport ordinary
      exact alike.mono fun _ _ => .base
  | call related =>
      cases known
      have fields : ∀ name ∈ Construct.call.readFields,
          name ∉ ["params", "defaults", "id", "name", "imported", "local"] := by decide
      exact Node.Twin.field_respelled (.call related) (fields name read)
  | declaration related given =>
      cases known
      have fields : ∀ name ∈ Construct.functionDeclaration.readFields, name = "id" ∨
          name ∉ ["params", "defaults", "id", "name", "imported", "local"] := by decide
      rcases fields name read with rfl | plain
      · rw [Rule.asDeclaration_id, Rule.asDeclaration_id]
        exact .node (.identifier related given)
      · exact Node.Twin.field_respelled (.declaration related given) plain
  | identifier related given =>
      cases known
      cases read
  | assignment related targets defaults =>
      cases known
      have fields : ∀ name ∈ Construct.binary.readFields,
          name ∉ ["params", "defaults", "id", "name", "imported", "local"] := by decide
      exact Node.Twin.field_respelled (.assignment related targets defaults) (fields name read)

theorem Node.Twin.base_of_kind (kind : node.kind = "ImportSpecifier" ∨ node.kind ∈ exportKinds) :
    Node.Respelled form root node other := by
  have others : ∀ kind ∈ ["CallExpression", "FunctionDeclaration", "Identifier", "AssignmentExpression"],
      ¬ (kind = "ImportSpecifier" ∨ kind ∈ exportKinds) := by decide
  cases twin with
  | base respelled => exact respelled
  | call _ => exact absurd kind (others "CallExpression" (by decide))
  | declaration _ _ => exact absurd kind (others "FunctionDeclaration" (by decide))
  | identifier _ _ => exact absurd kind (others "Identifier" (by decide))
  | assignment _ _ _ => exact absurd kind (others "AssignmentExpression" (by decide))

/-- A respelled node that is no export keeps its kind. -/
theorem Node.Twin.kind_respelled (ordinary : node.kind ∉ exportKinds) : node.kind = other.kind := by
  cases twin with
  | base respelled =>
      rcases respelled.kind_eq with same | ⟨exported, -⟩
      · exact same
      · exact absurd exported ordinary
  | _ => rfl

end Twins

namespace Node.Respelled

variable {form : TreeForm} {root : Spot} {node other : Node}

/-- A node and its counterpart are laid out alike. -/
theorem layout_like (twin : Node.Twin (Respelled form root) node other) (options : Options)
    {position place : Position} (places : Position.SameFor (.node node) position place) :
    (node.layout options position).Like (Task.Counterpart (Respelled form root))
        (other.layout options place) ∧
      node.owesTerminator options position = other.owesTerminator options place := by
  have like := resembles_respelled form root
  by_cases isImport : node.kind = "ImportSpecifier"
  · rcases places with rfl | ⟨-, noImport⟩
    · have kind := twin.kind_respelled (isImport ▸ (by decide : "ImportSpecifier" ∉ exportKinds))
      obtain @⟨spot, below, shape, sound⟩ := twin.base_of_kind (.inl isImport)
      have isOf := (isOf_iff_kind shape.node).mpr isImport
      unfold Node.layout Node.owesTerminator
      rw [← kind, isImport]
      exact ⟨Spot.imported_like form shape sound isOf _ position, rfl⟩
    · exact absurd isImport (noImport node rfl)
  · by_cases isExport : node.kind ∈ exportKinds
    · obtain respelled := twin.base_of_kind (.inr isExport)
      have known : ∀ kind ∈ "ExportDeclaration" :: exportKinds,
          Construct.ofKind? kind = some .exportDeclaration := by decide
      have kindToo : other.kind ∈ "ExportDeclaration" :: exportKinds := by
        rcases respelled.kind_eq with same | ⟨-, same⟩
        · exact same ▸ List.mem_cons_of_mem _ isExport
        · exact same ▸ List.mem_cons_self ..
      unfold Node.layout Node.owesTerminator
      rw [known _ (List.mem_cons_of_mem _ isExport), known _ kindToo]
      refine ⟨?_, ?_⟩
      · obtain @⟨spot, below, shape, sound⟩ := respelled
        have exported : exportKinds.any (Json.object spot.members).isOf = true :=
          List.any_eq_true.mpr ⟨_, isExport, (isOf_iff_kind shape.node).mpr rfl⟩
        exact Spot.Below.exported_like below shape sound exported
      · have owes := Construct.owesTerminator_eq like options position .exportDeclaration nofun
          fun name read => twin.read_respelled isImport
            (known _ (List.mem_cons_of_mem _ isExport)) read
        exact owes
    · have kind := twin.kind_respelled isExport
      have alike (construct : Construct) (known : Construct.ofKind? node.kind = some construct)
          (name : String) (read : name ∈ construct.readFields) :=
        twin.read_respelled isImport known read
      refine twin.layout_like (fun _ _ => Task.Alike.counterpart) like kind options places
        (twin.asksAlike like options position alike) alike fun _ => ?_
      have params := twin.paramsLike fun all => all.paramsLike
      exact ⟨.movedParameters like twin kind params,
        Layout.Like.movedParametersYieldText_eq like params⟩

/-- A tree and the respelled tree render alike. -/
theorem render_like (respelled : Respelled form root node other) (options : Options)
    (position : Position) :
    (render options (.node node) position).Like
      (fun function other => Node.Twin (Respelled form root) function other ∧
        function.kind = "FunctionDeclaration")
      (render options (.node other) position) := by
  refine PhpRendering.render_like options ?_ ?_ ?_
    (Task.Counterpart.visit .copy .copy (.node (.base respelled)) (.inl rfl))
  · intro _ node position _ other place related
    cases related with
    | visit _ _ alike places =>
        cases alike with
        | node twin => exact layout_like twin options places
  · intro _ _ _ _ _ _ related
    cases related with
    | visit _ _ alike _ => exact alike.isSome_node?_eq
  · intro _ _ related
    cases related with
    | enter twin declared => exact ⟨twin, declared⟩

end Node.Respelled

end PhpRendering
