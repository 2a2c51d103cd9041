import PhpRendering.Proofs.Resemblance

/-!
# Layouts of counterparts

Each construct lays out corresponding nodes alike: the words come from what the nodes
have in common, and the slots are filled with values that correspond.
-/

namespace PhpRendering

/-! ## What parents look at -/

section Facade

variable {N : Node → Node → Prop} (like : LooksAlike N)
include like

variable {node other : Node} {value counterpart : Value}

theorem Value.Alike.name_eq (alike : value.Alike (Node.Twin N) counterpart) :
    value.name = counterpart.name := by
  cases alike with
  | node twin => exact twin.name_eq like
  | _ => rfl

theorem Value.Alike.isStatic_eq (alike : value.Alike (Node.Twin N) counterpart) :
    value.isStatic = counterpart.isStatic := by
  unfold Value.isStatic
  rw [alike.name_eq like]

theorem Node.Twin.kind_iff (twin : Twin N node other) {known : String}
    (plain : Construct.ofKind? known ≠ some .exportDeclaration) :
    node.kind = known ↔ other.kind = known :=
  (twin.kind like).eq_iff plain

theorem Node.Twin.flag_computed_eq (twin : Twin N node other) :
    node.flag "computed" = other.flag "computed" :=
  (twin.facade like (by decide)).isTruthy_eq

/-- The module that two nodes of one kind name for the bindings below them. -/
theorem Node.Twin.within_eq (twin : Twin N node other) (kind : node.kind = other.kind) :
    Position.within node = Position.within other := by
  have source := twin.facade like (by decide : "source" ∈ seenFields)
  have named : node.importSource = other.importSource := by
    unfold Node.importSource Node.require Node.field?
    simp only [source.isNull_eq, Node.missing, kind, twin.line like]
    cases (other.field "source").isNull with
    | true => rfl
    | false =>
        have same := (source.mono fun _ _ => Node.Twin.base).name_eq like
        simp only [Bool.false_eq_true, if_false, same]
  simp only [Position.within, kind, named]

/-- The position of one side of an operation. -/
theorem Node.Twin.of_eq (twin : Twin N node other) (kind : node.kind = other.kind) {field : String}
    (listed : field ∈ seenFields) :
    Position.of node (node.occurrence field) = .of other (other.occurrence field) := by
  simp only [Position.of, Position.leftOf, twin.within_eq like kind, kind,
    twin.isSame_eq like (by decide : "left" ∈ seenFields) listed]

/-- The connective that an access chooses inside its object is told by the names there. -/
theorem Value.Alike.connective_eq (alike : value.Alike (Node.Twin N) counterpart)
    (objects : ∀ node other, value = .node node → counterpart = .node other →
      node.kind = "MemberExpression" →
      (node.field "object").Alike (Node.Twin N) (other.field "object")) :
    (value.plainAccess?.map fun pair => Connective.between pair.1 pair.2) =
      counterpart.plainAccess?.map fun pair => Connective.between pair.1 pair.2 := by
  cases alike with
  | @node node other twin =>
      have kinds := twin.kind_iff like (by decide : Construct.ofKind? "MemberExpression" ≠ _)
      unfold Value.plainAccess? Node.field?
      by_cases kind : node.kind = "MemberExpression"
      · have object := objects _ _ rfl rfl kind
        have property := twin.facade like (by decide : "property" ∈ seenFields)
        have static := object.isStatic_eq like
        have staticToo := (property.mono fun _ _ => Node.Twin.base).isStatic_eq like
        simp only [kinds, twin.flag_computed_eq like, object.isNull_eq, property.isNull_eq]
        split
        · split
          · rfl
          · split
            · rfl
            · simp [Connective.between, static, staticToo]
        · rfl
      · have kindToo : other.kind ≠ "MemberExpression" := fun same => kind (kinds.mpr same)
        simp only [if_neg fun plain : node.kind = _ ∧ _ => kind plain.1,
          if_neg fun plain : other.kind = _ ∧ _ => kindToo plain.1]
  | _ => rfl

theorem Node.Twin.objectPosition_eq (twin : Twin N node other) (kind : node.kind = other.kind)
    (alike : value.Alike (Node.Twin N) counterpart)
    (objects : ∀ node other, value = .node node → counterpart = .node other →
      node.kind = "MemberExpression" →
      (node.field "object").Alike (Node.Twin N) (other.field "object")) :
    Rule.objectPosition node value = Rule.objectPosition other counterpart := by
  simp only [Rule.objectPosition, twin.within_eq like kind, alike.isStatic_eq like,
    alike.connective_eq like objects]

theorem Node.Twin.keyText_eq (twin : Twin N node other) : Rule.keyText node = Rule.keyText other := by
  have raw := twin.facade like (by decide : "raw" ∈ seenFields)
  have kinds := twin.kind_iff like (by decide : Construct.ofKind? "Literal" ≠ _)
  unfold Rule.keyText Node.flag
  by_cases literal : node.kind = "Literal"
  · have isValued : node.kind ∈ valuedKinds := literal ▸ (by decide)
    have valued := twin.value_alike like isValued
    have shown := twin.value_shown like isValued
    rw [if_pos literal, if_pos (kinds.mp literal), valued.text?_eq, raw.isTruthy_eq,
      raw.keySpelling_eq, valued.literalText_eq shown]
  · rw [if_neg literal, if_neg fun other => literal (kinds.mpr other), twin.name_eq like]

end Facade

/-! ## What is asked for -/

/-- Two nodes that ask for the same substitutes at a position, as calls or as accesses. The
objects of their callees correspond when a substitute takes the receiver, and those of the
accesses that are their objects when the connective inside these is chosen. -/
structure Node.AsksAlike (N : Node → Node → Prop) (options : Options) (position : Position)
    (node other : Node) : Prop where
  method : Construct.ofKind? node.kind = some .call → ∀ called calledToo,
    node.field "callee" = .node called → other.field "callee" = .node calledToo →
    Rule.methodSubstitute? options called = Rule.methodSubstitute? options calledToo
  property : Construct.ofKind? node.kind = some .member →
    Rule.propertySubstitute? options node position =
      Rule.propertySubstitute? options other position
  receiver : (node.substitute? options position).isSome = true → ∀ called calledToo,
    node.field "callee" = .node called → other.field "callee" = .node calledToo →
    (called.field "object").Alike (Node.Twin N) (calledToo.field "object")
  object : Construct.ofKind? node.kind = some .member →
    node.substitute? options position = none → ∀ inner innerToo,
    node.field "object" = .node inner → other.field "object" = .node innerToo →
    inner.kind = "MemberExpression" →
    (inner.field "object").Alike (Node.Twin N) (innerToo.field "object")

namespace Node.Twin

variable {N : Node → Node → Prop} (like : LooksAlike N)
  (identifier : ∀ {node other}, N node other → node.kind = "Identifier" →
    (node.field "name").Alike N (other.field "name")) {node other : Node}
include like identifier

theorem accessedName_eq (twin : Twin N node other) :
    node.accessedName = other.accessedName := by
  have property := twin.facade like (by decide : "property" ∈ seenFields)
  unfold Node.accessedName
  rw [twin.flag_computed_eq like]
  generalize node.field "property" = named at property
  generalize other.field "property" = namedToo at property
  cases property with
  | @node named namedToo related =>
      simp only [(like.kind related).eq_iff (by decide : Construct.ofKind? "Identifier" ≠ _)]
      by_cases isIdentifier : namedToo.kind = "Identifier"
      · have same := ((like.kind related).eq_iff (by decide)).mpr isIdentifier
        simp only [(identifier related same).substituteName_eq]
      · simp only [if_neg isIdentifier]
  | _ => rfl

theorem methodSubstitute?_eq (twin : Twin N node other) (options : Options) :
    Rule.methodSubstitute? options node = Rule.methodSubstitute? options other := by
  unfold Rule.methodSubstitute?
  simp only [twin.kind_iff like (by decide : Construct.ofKind? "MemberExpression" ≠ _),
    twin.accessedName_eq like identifier]

theorem propertySubstitute?_eq (twin : Twin N node other) (options : Options)
    (position : Position) :
    Rule.propertySubstitute? options node position =
      Rule.propertySubstitute? options other position := by
  unfold Rule.propertySubstitute?
  rw [twin.flag_computed_eq like, twin.accessedName_eq like identifier]

end Node.Twin

/-! ## Positions -/

/-- Whether two positions are the same for a value: only an imported binding looks at the
module that the parent names. -/
def Position.SameFor (value : Value) (position place : Position) : Prop :=
  position = place ∨ (∃ source, place = { position with importSource := source }) ∧
    ∀ node, value = .node node → node.kind ≠ "ImportSpecifier"

inductive Task.Alike (N : Node → Node → Prop) : Task → Task → Prop where
  | visit (source : Source) {value other : Value} {position place : Position}
      (alike : value.Alike (Node.Twin N) other) (places : Position.SameFor value position place) :
      Alike N (.visit source value position) (.visit source other place)
  | enter {function other : Node} (related : Node.Twin N function other)
      (declared : function.kind = "FunctionDeclaration") :
      Alike N (.enter function) (.enter other)

inductive Task.Paired (N : Node → Node → Prop) : Task → Task → Prop where
  | visit (source : Source) {value other : Value} (position : Position)
      (alike : value.Alike (Node.Twin N) other) :
      Paired N (.visit source value position) (.visit source other position)
  | enter {function other : Node} (related : Node.Twin N function other)
      (declared : function.kind = "FunctionDeclaration") :
      Paired N (.enter function) (.enter other)

theorem Task.Paired.alike {N : Node → Node → Prop} {task other : Task}
    (paired : task.Paired N other) : task.Alike N other := by
  cases paired with
  | visit source position alike => exact .visit source alike (.inl rfl)
  | enter related declared => exact .enter related declared

/-! ## Ways to lay out -/

namespace Layout.Like

variable {N : Node → Node → Prop} {R : Task → Task → Prop}

variable {node other : Node} {field : String}

/-- What follows the reading of a required field. -/
theorem needed (kind : node.kind = other.kind) (line : node.line = other.line)
    (alike : (node.field field).Alike N (other.field field)) {next follow : Value → Layout}
    (inner : (next (node.field field)).Like R (follow (other.field field))) :
    (Layout.needed node field next).Like R (Layout.needed other field follow) := by
  unfold Layout.needed Node.require Node.field?
  simp only [alike.isNull_eq, Node.missing, kind, line]
  cases (other.field field).isNull with
  | true => exact .stop _
  | false => exact inner

/-- What follows the reading of a field that may be absent. -/
theorem optional (alike : (node.field field).Alike N (other.field field)) {absent absentToo : Layout}
    {next follow : Value → Layout} (nothing : absent.Like R absentToo)
    (inner : (next (node.field field)).Like R (follow (other.field field))) :
    (Layout.optional node field absent next).Like R (Layout.optional other field absentToo follow) := by
  unfold Layout.optional Node.field?
  simp only [alike.isNull_eq]
  cases (other.field field).isNull with
  | true => exact nothing
  | false => exact inner

/-- What follows an access to a value of the expected shape. -/
theorem shaped {α : Type} {A : α → α → Prop} {result other : Except Crash α}
    (alike : AlikeResults A result other) {next follow : α → Layout}
    (inner : ∀ found counterpart, result = .ok found → other = .ok counterpart →
      A found counterpart → (next found).Like R (follow counterpart)) :
    (Layout.shaped result next).Like R (Layout.shaped other follow) := by
  cases alike with
  | ok alike => exact inner _ _ rfl rfl alike
  | error crash => exact .stop _

/-- What follows a value that has to be a node. -/
theorem asNode {value counterpart : Value} (alike : value.Alike N counterpart)
    {next follow : Node → Layout}
    (inner : ∀ node other, value = .node node → counterpart = .node other → N node other →
      (next node).Like R (follow other)) :
    (Layout.shaped value.asNode next).Like R (Layout.shaped counterpart.asNode follow) :=
  shaped alike.asNode fun _ _ found foundToo related =>
    inner _ _ (Value.asNode_eq_ok found) (Value.asNode_eq_ok foundToo) related

end Layout.Like

/-! ## Slots -/

/-- The items of optional lists that correspond. -/
theorem Node.optionalItems_alike {N : Node → Node → Prop} {node other : Node} {field : String}
    (alike : (node.field field).Alike N (other.field field)) :
    AlikeResults (List.Forall₂ (Value.Alike N)) (node.optionalItems field)
      (other.optionalItems field) := by
  unfold Node.optionalItems Node.flag
  rw [alike.isTruthy_eq]
  split
  · exact alike.items
  · exact .ok .nil

theorem Rule.defaults_alike {N : Node → Node → Prop} {node other : Node}
    (alike : (node.field "defaults").Alike N (other.field "defaults")) :
    (Rule.defaults node).Alike N (Rule.defaults other) := by
  unfold Rule.defaults Node.flag
  rw [alike.isTruthy_eq]
  split
  · exact alike
  · exact .list rfl fun held => (List.not_mem_nil held).elim

/-- Items that correspond stand at the same positions. -/
theorem forall₂_zipIdx {α : Type} {A : α → α → Prop} {items others : List α}
    (all : List.Forall₂ A items others) (start : Nat) :
    List.Forall₂ (fun entry other => A entry.1 other.1 ∧ entry.2 = other.2) (items.zipIdx start)
      (others.zipIdx start) := by
  induction all generalizing start with
  | nil => exact .nil
  | cons first _ ih => exact .cons ⟨first, rfl⟩ (ih (start + 1))

namespace Layout.Like

variable {N : Node → Node → Prop} {R : Task → Task → Prop}
  (more : ∀ task other, Task.Paired N task other → R task other)
include more

variable {node other : Node} {value counterpart : Value} {items others : List Value}

/-- Slots at one position for values that correspond. -/
theorem slot (source : Source) (alike : value.Alike (Node.Twin N) counterpart)
    {position place : Position} (same : position = place) :
    (Layout.visit source value position).Like R (.visit source counterpart place) := by
  subst same
  exact .visit (more _ _ (.visit source position alike))

theorem slots (source : Nat → Source) {position place : Position} (same : position = place)
    (all : List.Forall₂ (Value.Alike (Node.Twin N)) items others) :
    List.Forall₂ (Layout.Like R) (Layout.slots source position items)
      (Layout.slots source place others) := by
  unfold Layout.slots
  rw [List.forall₂_map_left_iff, List.forall₂_map_right_iff]
  refine (forall₂_zipIdx all 0).imp ?_
  rintro ⟨item, index⟩ ⟨itemToo, indexToo⟩ ⟨alike, rfl⟩
  exact slot more _ alike same

variable (like : LooksAlike N)
include like

/-- Slots of which a text is wanted. -/
theorem textSlot (source : Source) (alike : value.Alike (Node.Twin N) counterpart)
    {position place : Position} (same : position = place) :
    (Layout.wanting value.form.isText (.visit source value position)).Like R
      (.wanting counterpart.form.isText (.visit source counterpart place)) := by
  have fits : value.form.isText = counterpart.form.isText :=
    congrArg Form.isText (alike.form_eq fun twin => twin.form_eq like)
  exact wanting fits (slot more _ alike same)

theorem textSlots (source : Nat → Source) {position place : Position} (same : position = place)
    (all : List.Forall₂ (Value.Alike (Node.Twin N)) items others) :
    List.Forall₂ (Layout.Like R) (Layout.textSlots source position items)
      (Layout.textSlots source place others) := by
  unfold Layout.textSlots
  rw [List.forall₂_map_left_iff, List.forall₂_map_right_iff]
  refine (forall₂_zipIdx all 0).imp ?_
  rintro ⟨item, index⟩ ⟨itemToo, indexToo⟩ ⟨alike, rfl⟩
  exact textSlot more like _ alike same

omit more in
theorem wantingItems (alike : value.Alike (Node.Twin N) counterpart) {layout layoutToo : Layout}
    (inner : layout.Like R layoutToo) :
    (Layout.wanting value.itemsYieldText layout).Like R
      (.wanting counterpart.itemsYieldText layoutToo) :=
  wanting (alike.itemsYieldText_eq fun twin => twin.form_eq like) inner

variable (twin : Node.Twin N node other) (kind : node.kind = other.kind)
include twin kind

theorem child {field : String}
    (alike : (node.field field).Alike (Node.Twin N) (other.field field)) :
    (Layout.child node field).Like R (Layout.child other field) :=
  needed kind (twin.line like) alike (slot more _ alike (twin.within_eq like kind))

theorem text {field : String}
    (alike : (node.field field).Alike (Node.Twin N) (other.field field)) :
    (Layout.text node field).Like R (Layout.text other field) :=
  needed kind (twin.line like) alike (textSlot more like _ alike (twin.within_eq like kind))

theorem side {field : String} (listed : field ∈ seenFields)
    (alike : (node.field field).Alike (Node.Twin N) (other.field field)) :
    (Layout.side node field).Like R (Layout.side other field) :=
  needed kind (twin.line like) alike (slot more _ alike (twin.of_eq like kind listed))

theorem optionalChild {field : String} (absent before after : String)
    (alike : (node.field field).Alike (Node.Twin N) (other.field field)) :
    (Layout.optionalChild node field absent before after).Like R
      (Layout.optionalChild other field absent before after) := by
  refine optional alike (.word _) (.next (.word _) (.next ?_ (.next (.word _) (.word _))))
  exact slot more _ alike (twin.within_eq like kind)

theorem optionalText {field : String} (absent before : String)
    (alike : (node.field field).Alike (Node.Twin N) (other.field field)) :
    (Layout.optionalText node field absent before).Like R
      (Layout.optionalText other field absent before) :=
  optional alike (.word _)
    (.next (.word _) (textSlot more like _ alike (twin.within_eq like kind)))

theorem statements (field : String) (alike : value.Alike (Node.Twin N) counterpart) :
    (Layout.statements node field value).Like R (Layout.statements other field counterpart) := by
  refine wantingItems like alike (shaped alike.items fun items others _ _ all => joined ?_)
  rw [List.forall₂_map_left_iff, List.forall₂_map_right_iff]
  refine (forall₂_zipIdx all 0).imp ?_
  rintro ⟨item, index⟩ ⟨itemToo, indexToo⟩ ⟨alike, rfl⟩
  simp only [alike.isNull_eq]
  split
  · exact .word _
  · exact slot more _ alike (by rw [twin.within_eq like kind, all.length_eq])

theorem optionalItems {field : String} {together : List Layout → Layout}
    (alike : (node.field field).Alike (Node.Twin N) (other.field field))
    (inner : ∀ layouts others, List.Forall₂ (Layout.Like R) layouts others →
      (together layouts).Like R (together others)) :
    (Layout.optionalItems node field together).Like R (Layout.optionalItems other field together) :=
  shaped (Node.optionalItems_alike alike) fun _ _ _ _ all =>
    inner _ _ (slots more _ (twin.within_eq like kind) all)

/-! ## Calls and accesses -/

theorem receiver (source : Source)
    (alike : (node.field "object").Alike (Node.Twin N) (other.field "object")) :
    (Layout.receiver source node).Like R (.receiver source other) :=
  needed kind (twin.line like) alike (slot more _ alike (twin.within_eq like kind))

theorem callReceiver (alike : (node.field "callee").Alike (Node.Twin N) (other.field "callee"))
    (objects : ∀ called calledToo, node.field "callee" = .node called →
      other.field "callee" = .node calledToo →
      (called.field "object").Alike (Node.Twin N) (calledToo.field "object")) :
    (Layout.callReceiver node).Like R (.callReceiver other) := by
  refine needed kind (twin.line like) alike (asNode alike fun called calledToo held heldToo same => ?_)
  exact receiver more like same (twin.callee_kind like held heldToo) .receiver
    (objects called calledToo held heldToo)

omit more twin kind in
/-- Whether the receivers and the arguments of corresponding calls are texts. -/
theorem operandsYieldText_eq
    (callee : (node.field "callee").Alike (Node.Twin N) (other.field "callee"))
    (arguments : (node.field "arguments").Alike (Node.Twin N) (other.field "arguments"))
    (objects : ∀ called calledToo, node.field "callee" = .node called →
      other.field "callee" = .node calledToo →
      (called.field "object").Alike (Node.Twin N) (calledToo.field "object")) :
    node.operandsYieldText = other.operandsYieldText := by
  have form : node.calledObject.form = other.calledObject.form := by
    unfold Node.calledObject
    generalize node.field "callee" = held at callee objects
    generalize other.field "callee" = heldToo at callee objects
    cases callee with
    | node same => exact (objects _ _ rfl rfl).form_eq fun twin => twin.form_eq like
    | _ => rfl
  simp only [Node.operandsYieldText, form,
    arguments.itemsYieldText_eq fun twin : Node.Twin N _ _ => twin.form_eq like]

/-- The calls that a substitute puts in the place of corresponding nodes. -/
theorem substituted
    (alike : ∀ name ∈ ["callee", "arguments", "object"],
      (node.field name).Alike (Node.Twin N) (other.field name))
    (objects : ∀ called calledToo, node.field "callee" = .node called →
      other.field "callee" = .node calledToo →
      (called.field "object").Alike (Node.Twin N) (calledToo.field "object"))
    (substitute : Substitute) :
    (Layout.substituted node substitute).Like R (.substituted other substitute) := by
  have receiver_like := receiver more like twin kind (.field "object") (alike _ (by decide))
  have callReceiver_like := callReceiver more like twin kind (alike _ (by decide)) objects
  have fits := operandsYieldText_eq like (alike "callee" (by decide)) (alike "arguments" (by decide))
    objects
  cases substitute with
  | receiverFirst function =>
      refine wanting fits
        (.next (.word _) (.next callReceiver_like (.next ?_ (.next (.word _) (.word _)))))
      refine optionalItems more like twin kind (alike _ (by decide)) fun layouts others all => joined ?_
      rw [List.forall₂_map_left_iff, List.forall₂_map_right_iff]
      exact all.imp fun _ _ same => .next (.word _) same
  | receiverLast function =>
      refine wanting fits
        (.next (.word _) (.next ?_ (.next callReceiver_like (.next (.word _) (.word _)))))
      refine optionalItems more like twin kind (alike _ (by decide)) fun layouts others all => joined ?_
      rw [List.forall₂_map_left_iff, List.forall₂_map_right_iff]
      exact all.imp fun _ _ same => .next same (.word _)
  | propertyFunction function =>
      exact .next (.word _) (.next receiver_like (.next (.word _) (.word _)))
  | charAt =>
      refine .swap (.next (.word _) (.next ?_ (.next (.word _) (.word _))))
        (.next (.word _) (.next callReceiver_like (.word _)))
      exact optionalItems more like twin kind (alike _ (by decide)) fun _ _ all => firstOr "0" all
  | constant text => exact .word _

theorem arguments
    (alike : (node.field "arguments").Alike (Node.Twin N) (other.field "arguments")) :
    (Layout.arguments node).Like R (.arguments other) :=
  wantingItems like alike
    (optionalItems more like twin kind alike fun _ _ => separatedBy ", ")

theorem continued (position : Position)
    (callee : (node.field "callee").Alike (Node.Twin N) (other.field "callee"))
    (operands : (node.field "arguments").Alike (Node.Twin N) (other.field "arguments")) :
    (Layout.continued node position (node.field "callee")).Like R
      (.continued other position (other.field "callee")) := by
  have form : (node.field "callee").form = (other.field "callee").form :=
    callee.form_eq fun twin => twin.form_eq like
  have function := slot more (.field "callee") callee
    (congrArg (fun place => { place with isCallee := true }) (twin.within_eq like kind))
  have operands := arguments more like twin kind operands
  have parent {follow : Layout} (same : follow.Like R follow) :
      (Layout.shaped position.checkParent fun _ => follow).Like R
        (.shaped position.checkParent fun _ => follow) := by
    cases position.checkParent with
    | error crash => exact .stop _
    | ok _ => exact same
  unfold Layout.continued
  rw [form]
  cases (other.field "callee").form with
  | text =>
      exact .next function (.next (.word _) (.next operands (.next (.word _)
        (.next (parent (.word _)) (.word _)))))
  | list isEmpty =>
      refine .next (.changed _ function) (.next (.changed _ (.next (.word _) (.next operands
        (.next (.word _) (.word _))))) (.next (parent ?_) (.word _)))
      split
      · exact .stop _
      · exact .word _
  | _ => exact .next function (.next operands (.next (.stop _) (.word _)))

theorem call (options : Options) (position : Position)
    (known : Construct.ofKind? node.kind = some .call)
    (asks : node.AsksAlike N options position other)
    (alike : ∀ name ∈ ["callee", "arguments", "object"],
      (node.field name).Alike (Node.Twin N) (other.field name)) :
    (Layout.call options node position).Like R (.call options other position) := by
  have callee := alike "callee" (by decide)
  refine needed kind (twin.line like) callee
    (asNode callee fun called calledToo held heldToo _ => ?_)
  rw [← asks.method known called calledToo held heldToo]
  cases found : Rule.methodSubstitute? options called with
  | error crash => exact .stop _
  | ok asked =>
      have taken : node.substitute? options position = asked :=
        Node.substitute?_of_call known held found
      cases asked with
      | some substitute =>
          exact substituted more like twin kind alike (asks.receiver (taken ▸ rfl)) substitute
      | none => exact continued more like twin kind position callee (alike _ (by decide))

theorem access (position : Position)
    (object : (node.field "object").Alike (Node.Twin N) (other.field "object"))
    (property : (node.field "property").Alike (Node.Twin N) (other.field "property"))
    (objects : ∀ inner innerToo, node.field "object" = .node inner →
      other.field "object" = .node innerToo → inner.kind = "MemberExpression" →
      (inner.field "object").Alike (Node.Twin N) (innerToo.field "object")) :
    (Layout.access node position (node.field "object") (node.field "property")).Like R
      (.access other position (other.field "object") (other.field "property")) := by
  refine .next (slot more _ object (twin.objectPosition_eq like kind object objects)) ?_
  rw [twin.flag_computed_eq like]
  have within := twin.within_eq like kind
  split
  · exact .next (.word _) (.next (slot more _ property within) (.next (.word _) (.word _)))
  · have static := property.isStatic_eq like
    simp only [Connective.between, object.isStatic_eq like, static]
    exact .next (.word _) (slot more _ property (by rw [within]))

theorem member (options : Options) (position : Position)
    (known : Construct.ofKind? node.kind = some .member)
    (asks : node.AsksAlike N options position other)
    (alike : ∀ name ∈ ["object", "property", "callee", "arguments"],
      (node.field name).Alike (Node.Twin N) (other.field name)) :
    (Layout.member options node position).Like R (.member options other position) := by
  have object := alike "object" (by decide)
  have property := alike "property" (by decide)
  refine needed kind (twin.line like) object (needed kind (twin.line like) property ?_)
  rw [← asks.property known]
  cases found : Rule.propertySubstitute? options node position with
  | error crash => exact .stop _
  | ok asked =>
      have taken := Node.substitute?_of_member known found
      cases asked with
      | none => exact access more like twin kind position object property (asks.object known taken)
      | some substitute =>
          refine substituted more like twin kind (fun name listed => alike name ?_)
            (asks.receiver (taken ▸ rfl)) substitute
          revert name
          decide

/-! ## Functions and classes -/

omit like twin kind in
theorem parameter {param paramToo : Value} {index : Nat} (like : LooksAlike N)
    (twin : Node.Twin N node other) (kind : node.kind = other.kind)
    (default : AlikeResults (Value.Alike N) ((Rule.defaults node).itemAt index)
      ((Rule.defaults other).itemAt index)) (alike : param.Alike N paramToo) :
    (Layout.parameter node param index).Like R (.parameter other paramToo index) := by
  have within := twin.within_eq like kind
  refine shaped default fun default defaultToo _ _ sameDefault => ?_
  refine asNode alike fun left right _ _ same => ?_
  have base : Node.Twin N left right := .base same
  simp only [base.kind_iff like (by decide : Construct.ofKind? "AssignmentPattern" ≠ _),
    sameDefault.isNull_eq]
  split
  · next pattern =>
      have kinds : left.kind = right.kind :=
        ((base.kind_iff like (by decide)).mpr pattern).trans pattern.symm
      have target := like.fields same "left" (by decide)
      have given := like.fields same "right" (by decide)
      exact needed kinds (like.line same) target (needed kinds (like.line same) given
        (slot more _ (.node (.assignment twin target given)) within))
  · split
    · exact slot more _ (alike.mono fun _ _ => .base) within
    · exact slot more _ (.node (.assignment twin alike sameDefault)) within

theorem parameters (params : (node.field "params").Alike N (other.field "params"))
    (defaults : (node.field "defaults").Alike N (other.field "defaults")) :
    (Layout.parameters node).Like R (.parameters other) := by
  have given := Rule.defaults_alike defaults
  refine shaped (Node.optionalItems_alike params) fun items others _ _ all => separatedBy ", " ?_
  rw [List.forall₂_map_left_iff, List.forall₂_map_right_iff]
  refine (forall₂_zipIdx all 0).imp ?_
  rintro ⟨param, index⟩ ⟨paramToo, indexToo⟩ ⟨alike, rfl⟩
  exact parameter more like twin kind (given.itemAt index) alike

omit more twin kind in
/-- Whether the parameters of corresponding functions are texts. -/
theorem parametersYieldText_eq (params : (node.field "params").Alike N (other.field "params"))
    (defaults : (node.field "defaults").Alike N (other.field "defaults")) :
    node.parametersYieldText = other.parametersYieldText := by
  have given : (Rule.defaults node).Alike N (Rule.defaults other) := Rule.defaults_alike defaults
  have results := Node.optionalItems_alike params
  unfold Node.parametersYieldText
  generalize node.optionalItems "params" = listed at results
  generalize other.optionalItems "params" = listedToo at results
  cases results with
  | error crash => rfl
  | ok all =>
      refine all_eq_of_forall₂ (forall₂_zipIdx all 0) ?_
      rintro ⟨param, index⟩ ⟨paramToo, indexToo⟩ ⟨alike, rfl⟩
      have form : param.form = paramToo.form := alike.form_eq like.form_eq
      have results := given.itemAt index
      simp only [form]
      generalize (Rule.defaults node).itemAt index = found at results
      generalize (Rule.defaults other).itemAt index = foundToo at results
      cases results with
      | ok same => simp only [same.isNull_eq]
      | error crash => rfl

theorem parameters_paired (params : (node.field "params").Alike N (other.field "params"))
    (defaults : (node.field "defaults").Alike N (other.field "defaults")) :
    (Layout.parameters node).Like R (.parameters other) ∧
      node.parametersYieldText = other.parametersYieldText :=
  ⟨parameters more like twin kind params defaults, parametersYieldText_eq like params defaults⟩

theorem superclass
    (alike : (node.field "superClass").Alike (Node.Twin N) (other.field "superClass")) :
    (Layout.superclass node).Like R (.superclass other) := by
  refine optional alike (.word _) (asNode alike fun parent parentToo _ _ same => ?_)
  rw [same.name_eq like]
  simp only [same.kind_iff like (by decide : Construct.ofKind? "Identifier" ≠ _)]
  split
  · exact .word _
  · exact .next (.word _) (slot more _ alike (twin.within_eq like kind))

omit more in
theorem unlessUnsupported {next follow : Layout}
    (alike : ∀ name ∈ ["computed", "kind"],
      (node.field name).Alike (Node.Twin N) (other.field name)) (inner : next.Like R follow) :
    (Layout.unlessUnsupported node next).Like R (.unlessUnsupported other follow) := by
  have form : Rule.unsupportedForm? node = Rule.unsupportedForm? other := by
    unfold Rule.unsupportedForm? Node.flag
    rw [(alike "computed" (by decide)).isTruthy_eq, (alike "kind" (by decide)).text?_eq]
  unfold Layout.unlessUnsupported
  rw [form]
  split
  · simp only [Diagnostic.unsupported, kind, twin.line like]
    exact .report _
  · exact inner

theorem method (options : Options) (position : Position)
    (alike : ∀ name ∈ ["key", "value", "computed", "kind", "static"],
      (node.field name).Alike (Node.Twin N) (other.field name)) :
    (Layout.method options node position).Like R (.method options other position) := by
  have key := alike "key" (by decide)
  have value := alike "value" (by decide)
  have static : node.flag "static" = other.flag "static" := (alike "static" (by decide)).isTruthy_eq
  have function : AlikeResults (Node.Twin N) (Rule.methodFunction (node.field "value"))
      (Rule.methodFunction (other.field "value")) := by
    generalize node.field "value" = held at value
    generalize other.field "value" = heldToo at value
    cases value with
    | scalar value => cases value <;> exact .error _
    | node same => exact .ok same
    | _ => exact .error _
  refine needed kind (twin.line like) key (needed kind (twin.line like) value ?_)
  refine unlessUnsupported like twin kind (fun name listed => alike name ?_) ?_
  · revert name
    decide
  · refine shaped function fun _ _ _ _ same => ?_
    rw [static, key.name_eq like]
    exact .next (.word _) (.next (slot more _ (.node (.declaration same _)) (twin.within_eq like kind))
      (.next (.word _) (.word _)))

/-! ## Expressions and statements -/

omit more twin kind in
theorem augend (argument : (node.field "argument").Alike (Node.Twin N) (other.field "argument"))
    (operator : (node.field "operator").Alike (Node.Twin N) (other.field "operator"))
    (child : (Layout.child node "argument").Like R (.child other "argument")) :
    (Layout.augend node).Like R (.augend other) := by
  unfold Layout.augend
  rw [argument.form_eq fun twin => twin.form_eq like]
  generalize node.field "operator" = added at operator
  generalize other.field "operator" = addedToo at operator
  cases (other.field "argument").form with
  | text => exact child
  | list isEmpty =>
      cases operator with
      | @list items others length each =>
          have same : items.isEmpty = others.isEmpty := by
            cases items <;> cases others <;> first | rfl | cases length
          simp only [same]
          exact .changed _ child
      | _ => exact .unwritten child
  | _ => exact .unwritten child

theorem update (argument : (node.field "argument").Alike (Node.Twin N) (other.field "argument"))
    (operator : (node.field "operator").Alike (Node.Twin N) (other.field "operator")) :
    (Layout.update node).Like R (.update other) := by
  have form : (node.field "argument").form = (other.field "argument").form :=
    argument.form_eq fun twin => twin.form_eq like
  have shown := twin.shown like (by decide : "operator" ∈ shownFields)
  refine .next (augend like argument operator (child more like twin kind argument))
    (needed kind (twin.line like) operator ?_)
  rw [form, Form.plus_eq operator]
  cases (other.field "argument").form.plus (other.field "operator") with
  | error crash => exact .stop _
  | ok sum =>
      have ending : sum.ending (node.field "operator") = sum.ending (other.field "operator") := by
        cases sum <;> simp only [Form.ending, shown]
      simp only [Layout.shaped, ending]
      exact .word _

theorem property (alike : ∀ name ∈ ["key", "value", "computed", "kind"],
      (node.field name).Alike (Node.Twin N) (other.field name)) :
    (Layout.property node).Like R (.property other) := by
  have key := alike "key" (by decide)
  have value := alike "value" (by decide)
  refine needed kind (twin.line like) key (needed kind (twin.line like) value ?_)
  refine unlessUnsupported like twin kind (fun name listed => alike name ?_) ?_
  · revert name
    decide
  · refine asNode key fun _ keyToo _ _ same => ?_
    rw [same.keyText_eq like]
    cases Rule.keyText keyToo with
    | error crash => exact .stop _
    | ok name => exact .next (.word _) (slot more _ value (twin.within_eq like kind))

theorem alternate (alike : (node.field "alternate").Alike (Node.Twin N) (other.field "alternate")) :
    (Layout.alternate node).Like R (.alternate other) := by
  have within := twin.within_eq like kind
  refine optional alike (.word _) (asNode alike fun branch branchToo _ _ same => ?_)
  simp only [same.kind_iff like (by decide : Construct.ofKind? "BlockStatement" ≠ _)]
  split
  · exact .next (.word _) (.next (textSlot more like _ alike within) (.next (.word _) (.word _)))
  · exact .next (.word _) (textSlot more like _ alike within)

theorem loopInit (alike : (node.field "init").Alike (Node.Twin N) (other.field "init")) :
    (Layout.loopInit node (node.field "init")).Like R (.loopInit other (other.field "init")) := by
  refine asNode alike fun start startToo _ _ same => ?_
  simp only [same.kind_iff like (by decide : Construct.ofKind? "VariableDeclaration" ≠ _)]
  split
  · next declared =>
      have kinds : start.kind = startToo.kind :=
        ((same.kind_iff like (by decide)).mpr declared).trans declared.symm
      have declarations : (start.field "declarations").Alike (Node.Twin N)
          (startToo.field "declarations") :=
        (same.facade like (by decide)).mono fun _ _ => .base
      refine needed kinds (same.line like) declarations
        (shaped declarations.items fun items others _ _ all => separatedBy ", " ?_)
      rw [List.forall₂_map_left_iff, List.forall₂_map_right_iff]
      exact (textSlots more like _ (same.within_eq like kinds) all).imp fun _ _ => .clause
  · exact .clause (textSlot more like _ alike (twin.within_eq like kind))

theorem moduleBody (alike : value.Alike (Node.Twin N) counterpart) :
    (Layout.moduleBody node value).Like R (.moduleBody other counterpart) := by
  cases alike with
  | list length each => exact statements more like twin kind "body" (.list length each)
  | scalar scalar => exact slot more _ (.scalar scalar) (twin.within_eq like kind)
  | record members => exact slot more _ (.record members) (twin.within_eq like kind)
  | foreign place placeToo =>
      exact slot more _ (.foreign place placeToo) (twin.within_eq like kind)
  | node same => exact slot more _ (.node same) (twin.within_eq like kind)

theorem exported (alike : ∀ name ∈ ["declaration", "specifiers"],
      (node.field name).Alike (Node.Twin N) (other.field name)) :
    (Layout.exported node).Like R (.exported other) := by
  have declaration := alike "declaration" (by decide)
  have specifiers := alike "specifiers" (by decide)
  unfold Layout.exported Node.field?
  simp only [declaration.isNull_eq]
  cases (other.field "declaration").isNull with
  | true =>
      exact needed kind (twin.line like) specifiers (statements more like twin kind _ specifiers)
  | false =>
      refine wanting (congrArg Form.isText (declaration.form_eq fun twin => twin.form_eq like)) ?_
      exact .next (slot more _ declaration (twin.within_eq like kind))
        (asNode declaration fun _ _ _ _ _ => .word _)

omit more twin kind in
theorem aliasClause_eq (called : String)
    (name : (node.field "name").Alike (Node.Twin N) (other.field "name"))
    (bound : (node.field "local").Alike (Node.Twin N) (other.field "local")) :
    Rule.aliasClause called (Rule.localBinding? node) =
      Rule.aliasClause called (Rule.localBinding? other) := by
  have second : Rule.aliasClause called (node.field? "local") =
      Rule.aliasClause called (other.field? "local") := by
    simp only [Node.field?, bound.isNull_eq]
    cases (other.field "local").isNull with
    | true => rfl
    | false => simp only [Bool.false_eq_true, if_false, Rule.aliasClause, bound.name_eq like]
  unfold Rule.localBinding?
  generalize node.field "name" = held at name
  generalize other.field "name" = heldToo at name
  cases name with
  | @node binding bindingToo same =>
      have named : (Value.node binding).name = (Value.node bindingToo).name := same.name_eq like
      simp only [Rule.aliasClause, named]
  | _ => exact second

omit more in
theorem imported (position : Position)
    (alike : ∀ name ∈ ["id", "imported", "name", "local"],
      (node.field name).Alike (Node.Twin N) (other.field name)) :
    (Layout.imported node position).Like R (.imported other position) := by
  have id := alike "id" (by decide)
  have imported := alike "imported" (by decide)
  have line := twin.line like
  have clause (called : String) := aliasClause_eq like called (alike "name" (by decide))
    (alike "local" (by decide))
  refine .next ?_ (optional id (needed kind line imported ?_) ?_)
  · unfold Layout.importedModule
    cases position.importSource with
    | named moduleName => exact .word _
    | noParent =>
        simp only [Node.missing, kind, line]
        exact .stop _
    | _ => exact .stop _
  · unfold Layout.useStatement
    rw [clause, imported.name_eq like]
    exact .word _
  · unfold Layout.useStatement
    rw [clause, id.name_eq like]
    exact .word _

end Layout.Like

/-! ## Constructs -/

/-- The fields that the rule of a construct reads. The parameters of a function are read
together with their defaults, so these are not listed. -/
def Construct.readFields : Construct → List String
  | .statementList => ["body"]
  | .variableDeclaration => ["declarations"]
  | .variableDeclarator => ["id", "init"]
  | .identifier => []
  | .punctuator => ["value"]
  | .literal => ["raw", "value"]
  | .selfReference => []
  | .binary => ["left", "right", "operator"]
  | .update => ["argument", "operator"]
  | .expressionStatement => ["expression"]
  | .call => ["callee", "arguments", "object"]
  | .construction => []
  | .member => ["object", "property", "callee", "arguments"]
  | .functionDeclaration => ["id", "body"]
  | .functionExpression => ["id"]
  | .classDeclaration => ["id", "superClass", "body"]
  | .methodDefinition => ["key", "value", "computed", "kind", "static"]
  | .objectLiteral => ["properties"]
  | .arrayLiteral => ["elements"]
  | .property => ["key", "value", "computed", "kind"]
  | .returnStatement => ["argument"]
  | .ifStatement => ["test", "consequent", "alternate"]
  | .forStatement => ["init", "test", "update", "body"]
  | .forInStatement => ["right", "left", "body"]
  | .switchStatement => ["discriminant", "cases"]
  | .switchCase => ["test", "consequent"]
  | .breakStatement => []
  | .moduleDeclaration => ["id", "body"]
  | .exportDeclaration => ["declaration", "specifiers"]
  | .importDeclaration => ["specifiers"]
  | .importSpecifier => ["id", "imported", "name", "local"]

/-- Nodes that correspond have objects that correspond when all original nodes do. -/
theorem Value.Alike.objects {N : Node → Node → Prop}
    (all : ∀ {node other}, N node other → (node.field "object").Alike N (other.field "object"))
    {value counterpart : Value} (alike : value.Alike (Node.Twin N) counterpart) (inner innerToo : Node)
    (held : value = .node inner) (heldToo : counterpart = .node innerToo) :
    (inner.field "object").Alike (Node.Twin N) (innerToo.field "object") := by
  subst held heldToo
  cases alike with
  | node twin => exact (twin.field (by decide) all).mono fun _ _ => .base

/-- Nodes that resemble each other ask for the same. -/
theorem Node.Twin.asksAlike {N : Node → Node → Prop} (like : Resembles N) {node other : Node}
    (twin : Node.Twin N node other) (options : Options) (position : Position)
    (alike : ∀ construct, Construct.ofKind? node.kind = some construct →
      ∀ name ∈ construct.readFields, (node.field name).Alike (Node.Twin N) (other.field name)) :
    node.AsksAlike N options position other where
  method known called calledToo held heldToo := by
    have callee := alike .call known "callee" (by decide)
    rw [held, heldToo] at callee
    cases callee with
    | node same => exact same.methodSubstitute?_eq like like.identifier options
  property _ := twin.propertySubstitute?_eq like like.identifier options position
  receiver asked := by
    refine Value.Alike.objects (fun related => like.fields related "object" (by decide)) ?_
    rcases Node.known_of_substitute? asked with known | known
    · exact alike _ known "callee" (by decide)
    · exact alike _ known "callee" (by decide)
  object _ _ inner innerToo held heldToo _ := by
    refine Value.Alike.objects (fun related => like.fields related "object" (by decide)) ?_
      inner innerToo held heldToo
    exact (twin.field (by decide) fun related => like.fields related "object" (by decide)).mono
      fun _ _ => .base

/-- Only imported bindings look at the module that their parent names, and only function
expressions hand their position on. -/
theorem Construct.layout_importSource (options : Options) (node : Node) (position : Position)
    (source : ImportSource) {construct : Construct} (noImport : construct ≠ .importSpecifier)
    (noFunction : construct ≠ .functionExpression) :
    construct.layout options node { position with importSource := source } =
      construct.layout options node position := by
  cases construct with
  | importSpecifier => exact absurd rfl noImport
  | functionExpression => exact absurd rfl noFunction
  | _ => rfl

theorem Construct.owesTerminator_importSource (options : Options) (node : Node)
    (position : Position) (source : ImportSource) (construct : Construct) :
    construct.owesTerminator options node { position with importSource := source } =
      construct.owesTerminator options node position := by
  cases construct <;> rfl

section Constructs

variable {N : Node → Node → Prop} {R : Task → Task → Prop}
  (more : ∀ task other, Task.Paired N task other → R task other) (like : LooksAlike N)
  {node other : Node} (twin : Node.Twin N node other) (kind : node.kind = other.kind)
include more like twin kind

open Layout.Like in
/-- Corresponding nodes of a construct have layouts that are alike. -/
theorem Construct.layout_like (options : Options) (position : Position) {construct : Construct}
    (known : Construct.ofKind? node.kind = some construct)
    (asks : node.AsksAlike N options position other)
    (alike : ∀ name ∈ construct.readFields,
      (node.field name).Alike (Node.Twin N) (other.field name))
    (parameters : construct = .functionDeclaration →
      (Layout.parameters node).Like R (.parameters other) ∧
        node.parametersYieldText = other.parametersYieldText) :
    (construct.layout options node position).Like R (construct.layout options other position) := by
  have line := twin.line like
  have within := twin.within_eq like kind
  have child {field : String} (listed : field ∈ construct.readFields) :=
    child more like twin kind (alike field listed)
  have optionalChild {field : String} (listed : field ∈ construct.readFields)
      (absent before after : String) :=
    optionalChild more like twin kind absent before after (alike field listed)
  have text {field : String} (listed : field ∈ construct.readFields) :=
    text more like twin kind (alike field listed)
  cases construct with
  | statementList =>
      have body := alike "body" (by decide)
      exact needed kind line body (statements more like twin kind "body" body)
  | variableDeclaration =>
      have declarations := alike "declarations" (by decide)
      exact needed kind line declarations (wantingItems like declarations
        (shaped declarations.items fun _ _ _ _ all => joined (slots more _ within all)))
  | variableDeclarator => exact .next (child (by decide)) (optionalChild (by decide) _ _ _)
  | identifier =>
      simp only [Construct.layout, twin.name_eq like, Node.missing, kind, line]
      split
      · exact .stop _
      · split
        · exact .word _
        · exact .word _
  | punctuator =>
      refine needed kind line (alike "value" (by decide)) ?_
      have punctuator : node.kind = "Punctuator" := Construct.kind_eq known (by decide)
      rw [twin.value_shown like (punctuator ▸ (by decide : "Punctuator" ∈ valuedKinds))]
      exact .word _
  | literal =>
      refine optional (alike "raw" (by decide)) ?_ ?_
      · have literal : node.kind = "Literal" := Construct.kind_eq known (by decide)
        have isValued : node.kind ∈ valuedKinds := literal ▸ (by decide)
        have valued := twin.value_alike like isValued
        have shown := twin.value_shown like isValued
        rw [valued.literalText_eq shown]
        exact .word _
      · rw [twin.shown like (by decide : "raw" ∈ shownFields)]
        exact .word _
  | selfReference => exact .word _
  | binary =>
      have operator := alike "operator" (by decide)
      have side {field : String} (listed : field ∈ ["left", "right"]) :=
        side more like twin kind
          ((by decide : ∀ name ∈ ["left", "right"], name ∈ seenFields) field listed)
          (alike field ((by decide : ∀ name ∈ ["left", "right"],
            name ∈ Construct.binary.readFields) field listed))
      simp only [Construct.layout, twin.shown like (by decide : "operator" ∈ shownFields)]
      exact .next (side (by decide)) (.next (.word _) (.next (side (by decide))
        (.next (needed kind line operator (.word _)) (.word _))))
  | update => exact Layout.Like.update more like twin kind (alike _ (by decide)) (alike _ (by decide))
  | expressionStatement => exact text (by decide)
  | call => exact Layout.Like.call more like twin kind options position known asks alike
  | construction =>
      exact .next (.word _) (textSlot more like _ (.node (.call twin)) within)
  | member =>
      exact Layout.Like.member more like twin kind options position known asks alike
  | functionDeclaration =>
      have body := alike "body" (by decide)
      have declared : node.kind = "FunctionDeclaration" := Construct.kind_eq known (by decide)
      simp only [Construct.layout, (alike "id" (by decide)).name_eq like]
      obtain ⟨parameters, fits⟩ := parameters rfl
      exact .next (.word _) (.next parameters (.next (.word _)
        (.next (needed kind line body (.word _)) (.next (.enter (more _ _ (.enter twin declared)))
          (.next (wanting fits (.word _)) (.next (.word _)
            (.next (text (by decide)) (.next (.word _) (.word _)))))))))
  | functionExpression =>
      simp only [Construct.layout, (alike "id" (by decide)).name_eq like]
      exact slot more _ (.node (.declaration twin _)) rfl
  | classDeclaration =>
      have id := alike "id" (by decide)
      have parent := superclass more like twin kind (alike "superClass" (by decide))
      simp only [Construct.layout, id.name_eq like]
      exact .next (needed kind line id (.word _)) (.next (.word _) (.next parent
        (.next (.word _) (.next (text (by decide)) (.next (.word _) (.word _))))))
  | methodDefinition => exact method more like twin kind options position alike
  | objectLiteral =>
      have list := alike "properties" (by decide)
      have properties := optionalItems more like twin kind list fun _ _ => separatedBy ", "
      exact .next (.word _) (.next (wantingItems like list properties) (.next (.word _) (.word _)))
  | arrayLiteral =>
      have list := alike "elements" (by decide)
      refine .next (.word _) (.next (wantingItems like list ?_) (.next (.word _) (.word _)))
      refine shaped (Node.optionalItems_alike list) fun items others _ _ all =>
        separatedBy ", " ?_
      rw [List.forall₂_map_left_iff, List.forall₂_map_right_iff]
      refine (forall₂_zipIdx all 0).imp ?_
      rintro ⟨item, index⟩ ⟨itemToo, indexToo⟩ ⟨same, rfl⟩
      simp only [same.isNull_eq]
      split
      · exact .word _
      · exact slot more _ same within
  | property => exact Layout.Like.property more like twin kind alike
  | returnStatement =>
      exact optionalText more like twin kind _ _ (alike "argument" (by decide))
  | ifStatement =>
      have branch := alternate more like twin kind (alike "alternate" (by decide))
      exact .line (.next (.word _) (.next (child (by decide)) (.next (.word _)
        (.next (text (by decide)) (.next (.word _) (.next branch (.word _)))))))
  | forStatement =>
      have init := alike "init" (by decide)
      have start := optional init (.word "") (loopInit more like twin kind init)
      exact .next (.word _) (.next start (.next (.word _) (.next (optionalChild (by decide) _ _ _)
        (.next (.word _) (.next (optionalChild (by decide) _ _ _) (.next (.word _)
          (.next (.word _) (.next (child (by decide)) (.next (.word _) (.word _))))))))))
  | forInStatement =>
      exact .next (.word _) (.next (child (by decide)) (.next (.word _)
        (.next (.clause (text (by decide))) (.next (.word _) (.next (.word _)
          (.next (child (by decide)) (.next (.word _) (.word _))))))))
  | switchStatement =>
      refine .next (.word _) (.next (child (by decide)) (.next (.word _)
        (.next ?_ (.next (.word _) (.word _)))))
      refine shaped (Node.optionalItems_alike (alike "cases" (by decide))) fun _ _ _ _ all => joined ?_
      rw [List.forall₂_map_left_iff, List.forall₂_map_right_iff]
      exact (textSlots more like _ within all).imp fun _ _ same => .next same (.word _)
  | switchCase =>
      have consequent := alike "consequent" (by decide)
      refine .next (optionalChild (by decide) _ _ _) ?_
      have flag : node.flag "consequent" = other.flag "consequent" := consequent.isTruthy_eq
      simp only [flag]
      split
      · exact statements more like twin kind "consequent" consequent
      · exact statements more like twin kind "consequent"
          (.list rfl fun held => (List.not_mem_nil held).elim)
  | breakStatement => exact .word _
  | moduleDeclaration =>
      have id := alike "id" (by decide)
      have body := alike "body" (by decide)
      simp only [Construct.layout, id.name_eq like]
      exact .next (needed kind line id (.word _)) (.next (.word _)
        (.next (needed kind line body (moduleBody more like twin kind body)) (.word _)))
  | exportDeclaration => exact exported more like twin kind alike
  | importDeclaration =>
      have list := alike "specifiers" (by decide)
      exact wantingItems like list (optionalItems more like twin kind list fun _ _ => joined)
  | importSpecifier => exact imported like twin kind position alike

omit more twin kind in
/-- Corresponding nodes of a construct owe a terminator both or neither. -/
theorem Construct.owesTerminator_eq (options : Options) (position : Position)
    (construct : Construct)
    (asks : construct = .call → ∀ called calledToo, node.field "callee" = .node called →
      other.field "callee" = .node calledToo →
      Rule.methodSubstitute? options called = Rule.methodSubstitute? options calledToo)
    (alike : ∀ name ∈ construct.readFields,
      (node.field name).Alike (Node.Twin N) (other.field name)) :
    construct.owesTerminator options node position =
      construct.owesTerminator options other position := by
  cases construct with
  | variableDeclarator =>
      have init := alike "init" (by decide)
      simp only [Construct.owesTerminator, Node.has, Node.field?, init.isNull_eq]
      split <;> rfl
  | call =>
      have callee := alike "callee" (by decide)
      have asked := asks rfl
      simp only [Construct.owesTerminator]
      generalize node.field "callee" = held at callee asked
      generalize other.field "callee" = heldToo at callee asked
      cases callee with
      | node same => simp only [Value.node?, Option.map_some, asked _ _ rfl rfl]
      | _ => rfl
  | exportDeclaration =>
      have declaration := alike "declaration" (by decide)
      simp only [Construct.owesTerminator]
      generalize node.field "declaration" = held at declaration
      generalize other.field "declaration" = heldToo at declaration
      cases declaration with
      | node same => simp only [(same.kind like).isDeclarationKind_eq]
      | _ => rfl
  | _ => rfl

/-- Corresponding nodes at one position have layouts that are alike and owe a terminator
both or neither. -/
theorem Node.Twin.layout_paired (options : Options) (position : Position)
    (asks : node.AsksAlike N options position other)
    (alike : ∀ construct, Construct.ofKind? node.kind = some construct →
      ∀ name ∈ construct.readFields, (node.field name).Alike (Node.Twin N) (other.field name))
    (parameters : node.kind = "FunctionDeclaration" →
      (Layout.parameters node).Like R (.parameters other) ∧
        node.parametersYieldText = other.parametersYieldText) :
    (node.layout options position).Like R (other.layout options position) ∧
      node.owesTerminator options position = other.owesTerminator options position := by
  unfold Node.layout Node.owesTerminator
  rw [← kind]
  cases known : Construct.ofKind? node.kind with
  | none =>
      simp only [Diagnostic.unsupported, kind, twin.line like]
      exact ⟨.report _, trivial⟩
  | some construct =>
      have function : construct = .functionDeclaration → node.kind = "FunctionDeclaration" := by
        rintro rfl
        exact Construct.kind_eq known (by decide)
      have asked (call : construct = .call) := asks.method (known.trans (congrArg some call))
      exact ⟨Construct.layout_like more like twin kind options position known asks
        (alike construct known) fun declared => parameters (function declared),
        Construct.owesTerminator_eq like options position construct asked (alike construct known)⟩

end Constructs

/-- Corresponding nodes at positions that are the same for them have layouts that are alike
and owe a terminator both or neither. -/
theorem Node.Twin.layout_like {N : Node → Node → Prop} {R : Task → Task → Prop}
    (more : ∀ task other, Task.Alike N task other → R task other) (like : LooksAlike N)
    {node other : Node} (twin : Node.Twin N node other) (kind : node.kind = other.kind)
    (options : Options) {position place : Position}
    (places : Position.SameFor (.node node) position place)
    (asks : node.AsksAlike N options position other)
    (alike : ∀ construct, Construct.ofKind? node.kind = some construct →
      ∀ name ∈ construct.readFields, (node.field name).Alike (Node.Twin N) (other.field name))
    (parameters : node.kind = "FunctionDeclaration" →
      (Layout.parameters node).Like R (.parameters other) ∧
        node.parametersYieldText = other.parametersYieldText) :
    (node.layout options position).Like R (other.layout options place) ∧
      node.owesTerminator options position = other.owesTerminator options place := by
  obtain ⟨same, owes⟩ := twin.layout_paired (fun _ _ paired => more _ _ paired.alike) like kind
    options position asks alike parameters
  rcases places with rfl | ⟨⟨source, rfl⟩, noImport⟩
  · exact ⟨same, owes⟩
  · unfold Node.layout at same ⊢
    unfold Node.owesTerminator at owes ⊢
    rw [← kind] at same owes ⊢
    cases known : Construct.ofKind? node.kind with
    | none =>
        rw [known] at same
        exact ⟨same, rfl⟩
    | some construct =>
        rw [known] at same owes
        refine ⟨?_, owes.trans (construct.owesTerminator_importSource options other _ _).symm⟩
        by_cases expression : construct = .functionExpression
        · subst expression
          have id := alike _ known "id" (by decide)
          simp only [Construct.layout, id.name_eq like]
          refine .visit (more _ _ (.visit _ (.node (.declaration twin _)) (.inr ⟨⟨source, rfl⟩, ?_⟩)))
          rintro inner ⟨⟩
          exact (by decide : "FunctionDeclaration" ≠ "ImportSpecifier")
        · have noSpecifier : construct ≠ .importSpecifier := by
            rintro rfl
            exact noImport node rfl (Construct.kind_eq known (by decide))
          simp only at same ⊢
          rw [Construct.layout_importSource options other position source noSpecifier expression]
          exact same

end PhpRendering
