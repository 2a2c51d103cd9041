import PhpRendering.Proofs.Likeness

/-!
# Trees that resemble each other

Two trees resemble each other when corresponding nodes have what a parent looks at in
common: the kind, the line, and the fields that name a node or tell a member access. The
copies and assignments that are made of corresponding nodes correspond too. Then the
layout of a node is alike that of its counterpart, as soon as the fields that the rule
of the construct reads hold values that correspond.
-/

namespace PhpRendering

/-! ## Values -/

/-- Whether two values are the same, apart from nodes in them that correspond. Nothing in a
foreign value is read, so these correspond wherever they stand. -/
inductive Value.Alike (N : Node → Node → Prop) : Value → Value → Prop where
  | scalar (value : Scalar) : Alike N (.scalar value) (.scalar value)
  | record (members : List (String × Value)) : Alike N (.record members) (.record members)
  | foreign (origin other : Origin) : Alike N (.foreign origin) (.foreign other)
  | node {node counterpart : Node} (related : N node counterpart) :
      Alike N (.node node) (.node counterpart)
  | list {items others : List Value} (length : items.length = others.length)
      (each : ∀ {item other : Value}, (item, other) ∈ items.zip others → Alike N item other) :
      Alike N (.list items) (.list others)

/-- Two results of accesses: values that correspond, or the same crash. -/
inductive AlikeResults {α : Type} (A : α → α → Prop) : Except Crash α → Except Crash α → Prop where
  | ok {found other : α} (alike : A found other) : AlikeResults A (.ok found) (.ok other)
  | error (crash : Crash) : AlikeResults A (.error crash) (.error crash)

namespace Value.Alike

variable {N M : Node → Node → Prop} {value other : Value}

theorem list_iff {items others : List Value} :
    Alike N (.list items) (.list others) ↔ List.Forall₂ (Alike N) items others := by
  rw [List.forall₂_iff_zip]
  constructor
  · rintro (_ | _ | _ | _ | ⟨length, each⟩)
    exact ⟨length, each⟩
  · rintro ⟨length, each⟩
    exact .list length each

theorem mono (alike : Alike N value other) (weaker : ∀ node counterpart, N node counterpart →
    M node counterpart) : Alike M value other := by
  induction alike with
  | scalar value => exact .scalar value
  | record members => exact .record members
  | foreign origin other => exact .foreign origin other
  | node related => exact .node (weaker _ _ related)
  | list length _ ih => exact .list length ih

theorem isNull_eq (alike : Alike N value other) : value.isNull = other.isNull := by
  cases alike <;> rfl

theorem isTruthy_eq (alike : Alike N value other) : value.isTruthy = other.isTruthy := by
  cases alike with
  | @list items others length each =>
      cases items <;> cases others <;> first | rfl | cases length
  | _ => rfl

theorem text?_eq (alike : Alike N value other) : value.text? = other.text? := by
  cases alike <;> rfl

theorem isSome_node?_eq (alike : Alike N value other) :
    value.node?.isSome = other.node?.isSome := by
  cases alike <;> rfl

theorem asNode (alike : Alike N value other) : AlikeResults N value.asNode other.asNode := by
  cases alike with
  | node related => exact .ok related
  | _ => exact .error .notANode

theorem items (alike : Alike N value other) :
    AlikeResults (List.Forall₂ (Alike N)) value.items other.items := by
  have texts {α : Type} (entries : List α) (text : α → String) :
      List.Forall₂ (Alike N) (entries.map fun entry => .text (text entry))
        (entries.map fun entry => .text (text entry)) := by
    rw [List.forall₂_map_left_iff, List.forall₂_map_right_iff]
    exact List.forall₂_same.mpr fun entry _ => .scalar _
  cases alike with
  | scalar value =>
      cases value with
      | text letters => exact .ok (texts _ _)
      | _ => exact .error .notAList
  | record members => exact .ok (texts _ _)
  | foreign origin => exact .error .notAList
  | node related => exact .error .notAList
  | list length each => exact .ok (list_iff.mp (.list length each))

theorem getD_null {items others : List Value} (all : List.Forall₂ (Alike N) items others)
    (index : Nat) : Alike N (items[index]?.getD .null) (others[index]?.getD .null) := by
  induction all generalizing index with
  | nil => exact .scalar _
  | cons first _ ih =>
      cases index with
      | zero => exact first
      | succ index => exact ih index

theorem itemAt (alike : Alike N value other) (index : Nat) :
    AlikeResults (Alike N) (value.itemAt index) (other.itemAt index) := by
  cases alike with
  | scalar value =>
      cases value with
      | text letters =>
          have same : Alike N (.list (letters.toList.map fun letter => .text (String.singleton letter)))
              (.list (letters.toList.map fun letter => .text (String.singleton letter))) := by
            refine list_iff.mpr ?_
            rw [List.forall₂_map_left_iff, List.forall₂_map_right_iff]
            exact List.forall₂_same.mpr fun entry _ => .scalar _
          exact .ok (getD_null (list_iff.mp same) index)
      | _ => exact .error .notAList
  | record members =>
      simp only [Value.itemAt]
      split
      · exact .error .noSuchPosition
      · exact .ok (.scalar _)
  | foreign origin => exact .error .notAList
  | node related => exact .error .notAList
  | list length each => exact .ok (getD_null (list_iff.mp (.list length each)) index)

theorem substituteName_eq (alike : Alike N value other) :
    value.substituteName = other.substituteName := by
  cases alike with
  | @list items others length each =>
      cases items <;> cases others <;> first | rfl | cases length
  | _ => rfl

theorem literalText_eq (alike : Alike N value other) (shown : value.shown = other.shown) :
    Rule.literalText value = Rule.literalText other := by
  cases alike with
  | scalar value => rfl
  | _ => exact shown

theorem keySpelling_eq (alike : Alike N value other) :
    Rule.keySpelling value = Rule.keySpelling other := by
  cases alike <;> rfl

end Value.Alike

/-- Values that correspond are shown in the same way when corresponding nodes have the
same kind. -/
theorem Value.Alike.shown_eq {N : Node → Node → Prop} {value other : Value}
    (alike : value.Alike N other) (kinds : ∀ node other, N node other → node.kind = other.kind) :
    value.shown = other.shown := by
  have inside : value.shownInside = other.shownInside := by
    induction alike with
    | scalar value => rfl
    | record members => rfl
    | foreign origin => rfl
    | node related => simp only [Value.shownInside, kinds _ _ related]
    | @list items others length each ih =>
        have shown : shownItems items = shownItems others := by
          induction items generalizing others with
          | nil =>
              cases others with
              | nil => rfl
              | cons other rest => cases length
          | cons item rest inner =>
              cases others with
              | nil => cases length
              | cons other later =>
                  rw [shownItems, shownItems, ih (List.mem_cons_self ..),
                    inner (Nat.succ.inj length) (fun held => each (List.mem_cons_of_mem _ held))
                      (fun held => ih (List.mem_cons_of_mem _ held))]
        simp only [Value.shownInside, shown]
  cases alike with
  | scalar value => rfl
  | _ => exact inside

/-- Values that correspond are the same as others that correspond in both trees or in
neither, when the places where they stand are. -/
theorem Value.Alike.isSame_eq {N : Node → Node → Prop}
    (origins : ∀ {node other inner innerToo}, N node other → N inner innerToo →
      (node.origin == inner.origin) = (other.origin == innerToo.origin))
    {value other target targetToo : Value} {origin originToo place placeToo : Origin}
    (alike : value.Alike N other) (targets : target.Alike N targetToo)
    (places : (origin == place) = (originToo == placeToo)) :
    Occurrence.isSame ⟨value, origin⟩ ⟨target, place⟩ =
      Occurrence.isSame ⟨other, originToo⟩ ⟨targetToo, placeToo⟩ := by
  cases alike with
  | node related =>
      cases targets with
      | node relatedToo => exact origins related relatedToo
      | _ => rfl
  | _ => cases targets <;> simp only [Occurrence.isSame, places]

/-! ## Forms -/

/-- What is added to an output has the same form when it corresponds. -/
theorem Form.plus_eq {N : Node → Node → Prop} {operator other : Value}
    (alike : operator.Alike N other) (form : Form) : form.plus operator = form.plus other := by
  cases alike with
  | @list items others length each =>
      have same : items.isEmpty = others.isEmpty := by
        cases items <;> cases others <;> first | rfl | cases length
      cases form with
      | list isEmpty => simp only [Form.plus, same]
      | _ => rfl
  | _ => cases form <;> rfl

theorem all_eq_of_forall₂ {α β : Type} {A : α → β → Prop} {items : List α} {others : List β}
    {test : α → Bool} {testToo : β → Bool} (each : List.Forall₂ A items others)
    (same : ∀ item other, A item other → test item = testToo other) :
    items.all test = others.all testToo := by
  induction each with
  | nil => rfl
  | cons first _ ih => rw [List.all_cons, List.all_cons, same _ _ first, ih]

namespace Value.Alike

variable {N : Node → Node → Prop} {value other : Value}
  (forms : ∀ {node other}, N node other → node.form = other.form)
include forms

theorem form_eq (alike : Alike N value other) : value.form = other.form := by
  cases alike with
  | node related => exact forms related
  | _ => rfl

theorem itemsYieldText_eq (alike : Alike N value other) :
    value.itemsYieldText = other.itemsYieldText := by
  cases alike with
  | @list items others length each =>
      refine all_eq_of_forall₂ (list_iff.mp (.list length each)) fun item other alike => ?_
      rw [alike.form_eq forms]
  | _ => rfl

omit forms in
/-- A spelling that corresponds and is shown in the same way has the same form. -/
theorem held_form_eq (alike : Alike N value other) (shown : value.shown = other.shown) :
    (Output.held value).form = (Output.held other).form := by
  cases alike with
  | scalar value => rfl
  | @list items others length each =>
      have same : items.isEmpty = others.isEmpty := by
        cases items <;> cases others <;> first | rfl | cases length
      simp only [Output.form, same]
  | _ => exact congrArg Form.object shown

end Value.Alike

/-! ## What a parent sees of a node -/

def AlikeKinds (kind other : String) : Prop :=
  kind = other ∨ Construct.ofKind? kind = some .exportDeclaration ∧
    Construct.ofKind? other = some .exportDeclaration

namespace AlikeKinds

variable {kind other known : String}

theorem eq_iff (alike : AlikeKinds kind other)
    (plain : Construct.ofKind? known ≠ some .exportDeclaration) : kind = known ↔ other = known := by
  rcases alike with rfl | ⟨first, second⟩
  · rfl
  · constructor
    · rintro rfl
      exact absurd first plain
    · rintro rfl
      exact absurd second plain

theorem isDeclarationKind_eq (alike : AlikeKinds kind other) :
    Rule.isDeclarationKind kind = Rule.isDeclarationKind other := by
  have table : ∀ entry ∈ Construct.byKind, entry.2 = .exportDeclaration →
      Rule.isDeclarationKind entry.1 = true := by decide
  rcases alike with rfl | ⟨first, second⟩
  · rfl
  · rw [table _ (Construct.mem_byKind first) rfl, table _ (Construct.mem_byKind second) rfl]

end AlikeKinds

/-- The fields that parents look at, apart from the name. -/
def facadeFields : List String :=
  ["value", "raw", "computed", "object", "property", "declarations", "left", "right", "source"]

def shownFields : List String :=
  ["operator", "raw"]

def Construct.formFields : Construct → List String
  | .variableDeclarator => ["init", "id"]
  | .update => ["operator", "argument"]
  | _ => []

def valuedKinds : List String :=
  ["Literal", "Punctuator"]

/-- Corresponding nodes look the same to their parents. -/
structure Resembles (N : Node → Node → Prop) : Prop where
  kind : ∀ {node other}, N node other → AlikeKinds node.kind other.kind
  line : ∀ {node other}, N node other → node.line = other.line
  fields : ∀ {node other}, N node other → ∀ name ∈ facadeFields,
    (node.field name).Alike N (other.field name)
  name : ∀ {node other}, N node other → node.name = other.name
  identifier : ∀ {node other}, N node other → node.kind = "Identifier" →
    (node.field "name").Alike N (other.field "name")
  shown : ∀ {node other}, N node other → ∀ name ∈ shownFields,
    (node.field name).shown = (other.field name).shown
  value : ∀ {node other}, N node other → node.kind ∈ valuedKinds →
    (node.field "value").shown = (other.field "value").shown
  callee : ∀ {node other called calledToo}, N node other → node.field "callee" = .node called →
    other.field "callee" = .node calledToo → called.kind = calledToo.kind
  called : ∀ {node other}, N node other → (node.field "callee").Alike N (other.field "callee")
  formed : ∀ {node other}, N node other → ∀ construct,
    Construct.ofKind? node.kind = some construct → ∀ name ∈ construct.formFields,
      (node.field name).Alike N (other.field name)
  places : ∀ {node other inner innerToo}, N node other → N inner innerToo →
    (node.origin == inner.origin) = (other.origin == innerToo.origin)

/-- The fields that parents look at whatever the kind of the node is. The object of a node is
looked at by calls and accesses only. -/
def seenFields : List String :=
  ["raw", "computed", "property", "declarations", "left", "right", "source"]

/-- Corresponding nodes look the same to their parents, but the name that they have may
stand in different fields, and their objects need not correspond. -/
structure LooksAlike (N : Node → Node → Prop) : Prop where
  kind : ∀ {node other}, N node other → AlikeKinds node.kind other.kind
  line : ∀ {node other}, N node other → node.line = other.line
  fields : ∀ {node other}, N node other → ∀ name ∈ seenFields,
    (node.field name).Alike N (other.field name)
  name : ∀ {node other}, N node other → node.name = other.name
  shown : ∀ {node other}, N node other → ∀ name ∈ shownFields,
    (node.field name).shown = (other.field name).shown
  value : ∀ {node other}, N node other → node.kind ∈ valuedKinds →
    (node.field "value").Alike N (other.field "value")
  valueShown : ∀ {node other}, N node other → node.kind ∈ valuedKinds →
    (node.field "value").shown = (other.field "value").shown
  callee : ∀ {node other called calledToo}, N node other → node.field "callee" = .node called →
    other.field "callee" = .node calledToo → called.kind = calledToo.kind
  called : ∀ {node other}, N node other → (node.field "callee").Alike N (other.field "callee")
  formed : ∀ {node other}, N node other → ∀ construct,
    Construct.ofKind? node.kind = some construct → ∀ name ∈ construct.formFields,
      (node.field name).Alike N (other.field name)
  places : ∀ {node other inner innerToo}, N node other → N inner innerToo →
    (node.origin == inner.origin) = (other.origin == innerToo.origin)

theorem Resembles.looksAlike {N : Node → Node → Prop} (like : Resembles N) : LooksAlike N where
  kind := like.kind
  line := like.line
  fields related name seen :=
    like.fields related name ((by decide : ∀ name ∈ seenFields, name ∈ facadeFields) name seen)
  name := like.name
  shown := like.shown
  value related _ := like.fields related "value" (by decide)
  valueShown := like.value
  callee := like.callee
  called := like.called
  formed := like.formed
  places := like.places

instance {N : Node → Node → Prop} : Coe (Resembles N) (LooksAlike N) :=
  ⟨Resembles.looksAlike⟩

/-- Nodes that look alike have outputs of one form. -/
theorem LooksAlike.form_eq {N : Node → Node → Prop} (like : LooksAlike N) {node other : Node}
    (related : N node other) : node.form = other.form := by
  induction height : node.height using Nat.strongRecOn generalizing node other with
  | ind bound ih =>
      subst height
      have below {field : String} (alike : (node.field field).Alike N (other.field field)) :
          (node.field field).form = (other.field field).form := by
        have lower := node.height_field_lt field
        generalize node.field field = held at alike lower
        generalize other.field field = heldToo at alike
        cases alike with
        | node deeper => exact ih _ lower deeper rfl
        | _ => rfl
      have kinds : Construct.ofKind? other.kind = Construct.ofKind? node.kind := by
        rcases like.kind related with same | ⟨first, second⟩
        · rw [same]
        · rw [first, second]
      cases known : Construct.ofKind? node.kind with
      | none => rw [Node.form_of_unknown known, Node.form_of_unknown (kinds.trans known)]
      | some construct =>
          rw [Node.form_eq known, Node.form_eq (kinds.trans known)]
          have formed := like.formed related construct known
          cases construct with
          | literal =>
              have raw := like.fields related "raw" (by decide)
              have shown := like.shown related "raw" (by decide)
              simp only [Construct.form, Node.field?, raw.isNull_eq]
              cases (other.field "raw").isNull with
              | true => rfl
              | false => exact raw.held_form_eq shown
          | variableDeclarator =>
              have init := formed "init" (by decide)
              have target := below (formed "id" (by decide))
              simp only [Construct.form, Node.has, Node.field?, init.isNull_eq, target]
              split <;> rfl
          | update =>
              have operator := formed "operator" (by decide)
              simp only [Construct.form, Node.field?, operator.isNull_eq,
                below (formed "argument" (by decide))]
              cases (other.field "operator").isNull with
              | true => rfl
              | false => simp only [Bool.false_eq_true, if_false, Form.plus_eq operator]
          | call => simp only [Construct.form, below (like.called related)]
          | _ => rfl

/-! ## Copies -/

inductive Node.Twin (N : Node → Node → Prop) : Node → Node → Prop where
  | base {node other : Node} (related : N node other) : Twin N node other
  | call {node other : Node} (related : Twin N node other) :
      Twin N (Rule.asCall node) (Rule.asCall other)
  | declaration {node other : Node} (related : Twin N node other) (name : String) :
      Twin N (Rule.asDeclaration node name) (Rule.asDeclaration other name)
  | identifier {node other : Node} (related : Twin N node other) (name : String) :
      Twin N ⟨node.origin, "Identifier", [("name", .text name)], none⟩
        ⟨other.origin, "Identifier", [("name", .text name)], none⟩
  | assignment {node other : Node} {target targetToo default defaultToo : Value}
      (related : Twin N node other) (targets : target.Alike N targetToo)
      (defaults : default.Alike N defaultToo) :
      Twin N (Rule.defaultAssignment node target default)
        (Rule.defaultAssignment other targetToo defaultToo)

namespace Node.Twin

variable {N : Node → Node → Prop} {node other : Node} {name : String}

/-- A field corresponds when it does in all that nodes may be copies of. A name that is
given to a copy is no field of these. -/
theorem field (twin : Twin N node other) (notId : name ≠ "id")
    (all : ∀ {node other}, N node other → (node.field name).Alike N (other.field name)) :
    (node.field name).Alike N (other.field name) := by
  induction twin with
  | base related => exact all related
  | call _ ih => exact ih
  | declaration _ given ih =>
      rw [Rule.asDeclaration_field notId, Rule.asDeclaration_field notId]
      exact ih
  | identifier _ given _ =>
      by_cases isName : name = "name"
      · subst isName
        exact .scalar _
      · have absent (origin : Origin) : (⟨origin, "Identifier", [("name", .text given)], none⟩ :
            Node).field name = .null := by
          simp [Node.field, List.lookup_cons, beq_eq_false_iff_ne.mpr isName]
        rw [absent, absent]
        exact .scalar _
  | assignment _ targets defaults _ =>
      rw [Rule.defaultAssignment_field, Rule.defaultAssignment_field]
      split
      · exact .scalar _
      · split
        · exact targets
        · split
          · exact defaults
          · exact .scalar _

theorem id (twin : Twin N node other)
    (all : ∀ {node other}, N node other → (node.field "id").Alike N (other.field "id")) :
    (node.field "id").Alike (Twin N) (other.field "id") := by
  induction twin with
  | base related => exact (all related).mono fun _ _ => .base
  | call _ ih => exact ih
  | declaration related given ih =>
      rw [Rule.asDeclaration_id, Rule.asDeclaration_id]
      exact .node (.identifier related given)
  | identifier _ given _ => exact .scalar _
  | assignment _ _ _ _ => exact .scalar _

variable (like : LooksAlike N)
include like

theorem kind (twin : Twin N node other) : AlikeKinds node.kind other.kind := by
  induction twin with
  | base related => exact like.kind related
  | _ => exact .inl rfl

theorem line (twin : Twin N node other) : node.line = other.line := by
  induction twin with
  | base related => exact like.line related
  | call _ ih => exact ih
  | declaration _ _ ih => exact ih
  | identifier _ given _ => rfl
  | assignment _ _ _ _ => rfl

theorem facade (twin : Twin N node other) (listed : name ∈ seenFields) :
    (node.field name).Alike N (other.field name) := by
  have notId : name ≠ "id" := by
    rintro rfl
    revert listed
    decide
  exact twin.field notId fun related => like.fields related name listed

theorem shown (twin : Twin N node other) (listed : name ∈ shownFields) :
    (node.field name).shown = (other.field name).shown := by
  induction twin with
  | base related => exact like.shown related name listed
  | call _ ih => exact ih
  | declaration _ given ih =>
      have notId : name ≠ "id" := by
        rintro rfl
        revert listed
        decide
      rw [Rule.asDeclaration_field notId, Rule.asDeclaration_field notId]
      exact ih
  | identifier _ given _ => rfl
  | assignment _ _ _ _ =>
      have notSide : name ≠ "left" ∧ name ≠ "right" := by
        constructor
        · rintro rfl
          revert listed
          decide
        · rintro rfl
          revert listed
          decide
      rw [Rule.defaultAssignment_field, Rule.defaultAssignment_field, if_neg notSide.1,
        if_neg notSide.1, if_neg notSide.2, if_neg notSide.2]

/-- What stands in two fields is the same in both nodes or in neither. -/
theorem isSame_eq (twin : Twin N node other) {first second : String} (listed : first ∈ seenFields)
    (listedToo : second ∈ seenFields) :
    (node.occurrence first).isSame (node.occurrence second) =
      (other.occurrence first).isSame (other.occurrence second) := by
  refine (twin.facade like listed).isSame_eq like.places (twin.facade like listedToo) ?_
  simp [Origin.down]

theorem value_alike (twin : Twin N node other) (valued : node.kind ∈ valuedKinds) :
    (node.field "value").Alike N (other.field "value") := by
  cases twin with
  | base related => exact like.value related valued
  | call _ => exact absurd valued (by decide : "CallExpression" ∉ valuedKinds)
  | declaration _ name => exact absurd valued (by decide : "FunctionDeclaration" ∉ valuedKinds)
  | identifier _ name => exact .scalar _
  | assignment _ _ _ => exact absurd valued (by decide : "AssignmentExpression" ∉ valuedKinds)

theorem value_shown (twin : Twin N node other) (valued : node.kind ∈ valuedKinds) :
    (node.field "value").shown = (other.field "value").shown := by
  cases twin with
  | base related => exact like.valueShown related valued
  | call _ => exact absurd valued (by decide : "CallExpression" ∉ valuedKinds)
  | declaration _ name => exact absurd valued (by decide : "FunctionDeclaration" ∉ valuedKinds)
  | identifier _ name => rfl
  | assignment _ _ _ => exact absurd valued (by decide : "AssignmentExpression" ∉ valuedKinds)

theorem name_eq (twin : Twin N node other) : node.name = other.name := by
  induction twin with
  | base related => exact like.name related
  | call _ ih => exact ih
  | declaration _ given ih =>
      unfold Node.name at ih ⊢
      rw [Rule.asDeclaration_field (by decide : "name" ≠ "id"),
        Rule.asDeclaration_field (by decide : "name" ≠ "id"),
        Rule.asDeclaration_field (by decide : "value" ≠ "id"),
        Rule.asDeclaration_field (by decide : "value" ≠ "id")]
      exact ih
  | identifier _ given _ => rfl
  | assignment _ _ _ _ => rfl

theorem callee_kind (twin : Twin N node other) {called calledToo : Node}
    (held : node.field "callee" = .node called) (heldToo : other.field "callee" = .node calledToo) :
    called.kind = calledToo.kind := by
  induction twin with
  | base related => exact like.callee related held heldToo
  | call _ ih => exact ih held heldToo
  | declaration _ given ih =>
      rw [Rule.asDeclaration_field (by decide : "callee" ≠ "id")] at held heldToo
      exact ih held heldToo
  | identifier _ given _ => cases held
  | assignment _ _ _ _ => cases held

/-- Copies have outputs of one form as well. -/
theorem form_eq (twin : Twin N node other) : node.form = other.form := by
  cases twin with
  | base related => exact like.form_eq related
  | @call node other related =>
      have callee : (node.field "callee").form = (other.field "callee").form :=
        (related.field (by decide) like.called).form_eq like.form_eq
      have form (node : Node) : (Rule.asCall node).form =
          if (node.field "callee").form.isList then .list false else .text :=
        Node.form_eq (by rfl : Construct.ofKind? (Rule.asCall node).kind = some .call)
      rw [form, form, callee]
  | declaration _ name => rw [Rule.form_asDeclaration, Rule.form_asDeclaration]
  | _ => rfl

end Node.Twin

end PhpRendering
