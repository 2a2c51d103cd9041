import PhpRendering.Proofs.Source

/-!
# Readable nodes

The parts of a readable node find the shapes that they read. Each value that such a
node has rendered is a readable node again, and none of its tasks stops at a crash.
-/

namespace PhpRendering

/-! ## Fields of readable nodes -/

/-- A hole or a node is a node when it is no hole. -/
theorem node_of_hole {items : List Value}
    (nodes : ∀ item ∈ items, item = .null ∨ ∃ child, item = Value.node child) :
    ∀ item ∈ items, item.isNull = false → ∃ child, item = .node child := by
  intro item inside something
  rcases nodes item inside with rfl | node
  · cases something
  · exact node

/-- A value that has items and is admitted where lists are read. -/
theorem Shape.Admits.list {shape : Shape} {value : Value} {items : List Value}
    (admits : shape.Admits value)
    (several : shape = .nodes ∨ shape = .holedNodes ∨ shape = .nodeOrNodes)
    (held : value.items = .ok items) :
    value = .list items ∧
      ∀ item ∈ items, shape = .nodes ∨ item.isNull = false → ∃ child, item = .node child := by
  rcases several with rfl | rfl | rfl
  · rcases admits with rfl | ⟨known, rfl, nodes⟩
    · cases held
    · cases held
      exact ⟨rfl, fun item inside _ => nodes item inside⟩
  · rcases admits with rfl | ⟨known, rfl, nodes⟩
    · cases held
    · cases held
      exact ⟨rfl, fun item inside plain =>
        node_of_hole nodes item inside (plain.resolve_left (by decide))⟩
  · rcases admits with rfl | ⟨child, rfl⟩ | ⟨known, rfl, nodes⟩
    · cases held
    · cases held
    · cases held
      exact ⟨rfl, fun item inside plain =>
        node_of_hole nodes item inside (plain.resolve_left (by decide))⟩

def Node.Fulfils (node : Node) (reading : Reading) : Prop :=
  reading.shape.Admits (node.field reading.field) ∧
    ∀ child ∈ Node.nodesOf (node.field reading.field), ∀ role ∈ reading.use.roles child,
      ReadableAs role child

def Part.IsReadable (part : Part) (node : Node) : Prop :=
  ∀ reading ∈ part.readings, node.Fulfils reading

theorem readableAs_iff {role : Role} {node : Node} :
    ReadableAs role node ↔ ∀ reading ∈ role.readings, node.Fulfils reading := by
  constructor
  · rintro ⟨admits, below⟩ reading listed
    exact ⟨admits reading listed, below reading listed⟩
  · intro fulfils
    exact .intro (fun reading listed => (fulfils reading listed).1)
      fun reading listed => (fulfils reading listed).2

theorem readableAs_construct_iff {construct : Construct} {node : Node} :
    ReadableAs (.construct construct) node ↔ ∀ part ∈ construct.parts, part.IsReadable node := by
  rw [readableAs_iff]
  exact List.forall_mem_flatMap

/-- A node of a known kind is readable when its parts are. -/
theorem Node.readable_iff_parts {node : Node} {construct : Construct}
    (known : Construct.ofKind? node.kind = some construct) :
    node.Readable ↔ ∀ part ∈ construct.parts, part.IsReadable node := by
  rw [Node.readable_iff, known, ← readableAs_construct_iff]
  constructor
  · exact fun readable => readable construct rfl
  · rintro readable _ ⟨⟩
    exact readable

namespace Node.Fulfils

variable {node : Node} {name : String} {use : Use}

/-- Only the field counts. -/
theorem of_field_eq {other : Node} {reading : Reading} (fulfils : node.Fulfils reading)
    (same : other.field reading.field = node.field reading.field) : other.Fulfils reading := by
  unfold Node.Fulfils
  rw [same]
  exact fulfils

/-- A field that holds nothing is no obstacle. -/
theorem of_null {reading : Reading} (nothing : node.field reading.field = .null) :
    node.Fulfils reading := by
  unfold Node.Fulfils
  rw [nothing]
  refine ⟨?_, List.forall_mem_nil _⟩
  cases reading.shape with
  | anything => trivial
  | text => exact .inl rfl
  | node => exact .inl rfl
  | nodes => exact .inl rfl
  | holedNodes => exact .inl rfl
  | nodeOrNodes => exact .inl rfl

/-- What stands in a field that is read as a node. -/
theorem node_of_field? {shape : Shape} {value : Value} (fulfils : node.Fulfils ⟨name, shape, use⟩)
    (single : shape = .node ∨ shape = .nodeOrNodes ∧ ∀ items, value ≠ .list items)
    (found : node.field? name = some value) :
    ∃ child, value = .node child ∧ ∀ role ∈ use.roles child, ReadableAs role child := by
  obtain ⟨rfl, something⟩ := Node.field?_eq_some_iff.mp found
  obtain ⟨admits, below⟩ := fulfils
  have held : ∃ child, node.field name = .node child := by
    rcases single with rfl | ⟨rfl, one⟩
    · rcases admits with nothing | node
      · exact absurd (something.symm.trans (congrArg Value.isNull nothing)) Bool.false_ne_true
      · exact node
    · rcases admits with nothing | node | ⟨items, several, -⟩
      · exact absurd (something.symm.trans (congrArg Value.isNull nothing)) Bool.false_ne_true
      · exact node
      · exact absurd several (one items)
  obtain ⟨child, same⟩ := held
  simp only at below
  rw [same] at below ⊢
  exact ⟨child, rfl, below child (List.mem_singleton_self _)⟩

/-- What stands in a list that is read. -/
theorem node_of_item {shape : Shape} {items : List Value} {item : Value}
    (fulfils : node.Fulfils ⟨name, shape, use⟩)
    (several : shape = .nodes ∨ (shape = .holedNodes ∨ shape = .nodeOrNodes) ∧ item.isNull = false)
    (held : (node.field name).items = .ok items) (inside : item ∈ items) :
    ∃ child, item = .node child ∧ ∀ role ∈ use.roles child, ReadableAs role child := by
  obtain ⟨admits, below⟩ := fulfils
  obtain ⟨same, nodes⟩ := admits.list (several.imp_right fun holed => holed.1) held
  obtain ⟨child, rfl⟩ := nodes item inside (several.imp_right fun holed => holed.2)
  simp only at below same
  rw [same] at below
  exact ⟨child, rfl, below child (List.mem_filterMap.mpr ⟨_, inside, rfl⟩)⟩

/-- A list that is read has items. -/
theorem items_of_field? {shape : Shape} {list : Value}
    (fulfils : node.Fulfils ⟨name, shape, use⟩)
    (several : shape = .nodes ∨ shape = .holedNodes) (found : node.field? name = some list) :
    ∃ items, list = .list items := by
  obtain ⟨held, something⟩ := Node.field?_eq_some_iff.mp found
  obtain ⟨admits, -⟩ := fulfils
  simp only [held] at admits
  rcases several with rfl | rfl
  · rcases admits with rfl | ⟨items, rfl, -⟩
    · cases something
    · exact ⟨items, rfl⟩
  · rcases admits with rfl | ⟨items, rfl, -⟩
    · cases something
    · exact ⟨items, rfl⟩

theorem items_of_flag {shape : Shape} (fulfils : node.Fulfils ⟨name, shape, use⟩)
    (several : shape = .nodes ∨ shape = .holedNodes) (flag : node.flag name = true) :
    ∃ items, node.field name = .list items := by
  cases found : node.field? name with
  | none =>
      unfold Node.flag at flag
      rw [Node.field?_eq_none_iff.mp found] at flag
      cases flag
  | some list =>
      obtain ⟨items, rfl⟩ := fulfils.items_of_field? several found
      exact ⟨items, Node.field_of_field? found⟩

/-- A list that may be absent can be read. -/
theorem optionalItems {shape : Shape} (fulfils : node.Fulfils ⟨name, shape, use⟩)
    (several : shape = .nodes ∨ shape = .holedNodes) :
    ∃ items, node.optionalItems name = .ok items := by
  unfold Node.optionalItems
  split
  · next flag =>
      obtain ⟨items, listed⟩ := fulfils.items_of_flag several flag
      exact ⟨items, congrArg Value.items listed⟩
  · exact ⟨[], rfl⟩

end Node.Fulfils

/-! ## Texts of readable nodes -/

theorem Value.form_of_nodesOf {value : Value}
    (below : ∀ child ∈ Node.nodesOf value, child.form = .text) : value.form = .text := by
  cases value with
  | node child => exact below child (List.mem_singleton_self _)
  | _ => rfl

theorem Value.itemsYieldText_of_nodesOf {list : Value}
    (below : ∀ child ∈ Node.nodesOf list, child.form = .text) : list.itemsYieldText = true := by
  cases list with
  | list items =>
      refine List.all_eq_true.mpr fun item inside => ?_
      cases item with
      | node child =>
          rw [Value.form, below child (List.mem_filterMap.mpr ⟨_, inside, rfl⟩)]
          rfl
      | _ => rfl
  | _ => rfl

/-- A node that is read as a node of its kind yields a text. -/
theorem ReadableAs.form_eq {role : Role} {node : Node} (readable : ReadableAs role node)
    {construct : Construct} (read : role = .construct construct)
    (known : Construct.ofKind? node.kind = some construct) : node.form = .text := by
  induction readable generalizing construct with
  | @intro role node admits below ih =>
      subst read
      have yields {field : String} {use : Use}
          (listed : ⟨field, .node, use⟩ ∈ (Role.construct construct).readings)
          (rendered : ∀ child, ∀ role ∈ Role.ofKind child.kind, role ∈ use.roles child) :
          (node.field field).form = .text := by
        refine Value.form_of_nodesOf fun child inside => ?_
        cases kind : Construct.ofKind? child.kind with
        | none => exact Node.form_of_unknown kind
        | some inner =>
            refine ih _ listed child inside (.construct inner) (rendered child _ ?_) rfl kind
            simp [Role.ofKind, kind]
      rw [Node.form_eq known]
      cases construct
      case literal =>
        have spelled : Shape.text.Admits (node.field "raw") :=
          admits ⟨"raw", .text, .unread⟩ (List.mem_singleton_self _)
        simp only [Construct.form]
        cases given : node.field? "raw" with
        | none => rfl
        | some raw =>
            rw [Node.field_of_field? given] at spelled
            rcases spelled with rfl | ⟨letters, rfl⟩
            · cases (Node.field?_eq_some_iff.mp given).2
            · rfl
      case variableDeclarator =>
        have target : (node.field "id").form = .text :=
          yields (List.mem_cons_self ..) fun _ _ listed => listed
        simp only [Construct.form, target, ite_self]
      case update =>
        have argument : (node.field "argument").form = .text :=
          yields (List.mem_cons_self ..) fun _ _ listed => listed
        have marked : Shape.text.Admits (node.field "operator") :=
          admits ⟨"operator", .text, .unread⟩ (List.mem_cons_of_mem _ (List.mem_cons_self ..))
        simp only [Construct.form, argument]
        cases given : node.field? "operator" with
        | none => rfl
        | some operator =>
            rw [Node.field_of_field? given] at marked
            rcases marked with rfl | ⟨letters, rfl⟩
            · cases (Node.field?_eq_some_iff.mp given).2
            · rfl
      case call =>
        have callee : (node.field "callee").form = .text :=
          yields (List.mem_cons_self ..) fun _ _ listed => List.mem_append_left _ listed
        simp only [Construct.form, callee]
        rfl
      all_goals rfl

theorem Node.Readable.form_eq {node : Node} (readable : node.Readable) : node.form = .text := by
  cases known : Construct.ofKind? node.kind with
  | none => exact Node.form_of_unknown known
  | some construct => exact (Node.readable_iff.mp readable construct known).form_eq rfl known

namespace Node.Fulfils

variable {node : Node} {name : String} {shape : Shape} {use : Use}

/-- Nodes that are read as nodes of their kind yield texts. -/
theorem forms (fulfils : node.Fulfils ⟨name, shape, use⟩)
    (rendered : ∀ child, ∀ role ∈ Role.ofKind child.kind, role ∈ use.roles child) :
    ∀ child ∈ Node.nodesOf (node.field name), child.form = .text :=
  fun child inside => Node.Readable.form_eq fun role known =>
    fulfils.2 child inside role (rendered child role known)

theorem form_eq (fulfils : node.Fulfils ⟨name, shape, .rendered⟩) :
    (node.field name).form = .text :=
  Value.form_of_nodesOf (fulfils.forms fun _ _ known => known)

theorem itemsYieldText (fulfils : node.Fulfils ⟨name, shape, .rendered⟩) :
    (node.field name).itemsYieldText = true :=
  Value.itemsYieldText_of_nodesOf (fulfils.forms fun _ _ known => known)

/-- The parameters of a function yield texts, with their defaults or without. -/
theorem parametersYieldText (fulfils : node.Fulfils ⟨"params", .nodes, .parameter⟩) :
    node.parametersYieldText = true := by
  unfold Node.parametersYieldText
  split
  · next params listed =>
      refine List.all_eq_true.mpr fun entry inside => ?_
      have held : (node.field "params").items = .ok params ∨ params = [] :=
        (Node.optionalItems_eq_ok listed).symm
      rcases held with held | rfl
      · obtain ⟨param, same, roles⟩ :=
          fulfils.node_of_item (.inl rfl) held (List.fst_mem_of_mem_zipIdx inside)
        have yields : param.form = .text := by
          simp only [Use.roles] at roles
          split at roles
          · next kind =>
              have unknown : Construct.ofKind? param.kind = none := by
                rw [kind]
                rfl
              exact Node.form_of_unknown unknown
          · exact Node.Readable.form_eq roles
        rw [same, Value.form, yields]
        rfl
      · cases inside
  · rfl

end Node.Fulfils

/-- The callee of a readable call yields a text. -/
theorem Node.Readable.callee_form {node : Node} (readable : node.Readable)
    (known : Construct.ofKind? node.kind = some .call) : (node.field "callee").form = .text := by
  have callee : node.Fulfils ⟨"callee", .node, .called⟩ :=
    readableAs_iff.mp (Node.readable_iff.mp readable _ known) _ (List.mem_cons_self ..)
  exact Value.form_of_nodesOf (callee.forms fun _ _ role => List.mem_append_left _ role)

/-- The argument of a readable update yields a text. -/
theorem Node.Readable.argument_form {node : Node} (readable : node.Readable)
    (known : Construct.ofKind? node.kind = some .update) :
    (node.field "argument").form = .text := by
  have argument : node.Fulfils ⟨"argument", .node, .rendered⟩ :=
    readableAs_iff.mp (Node.readable_iff.mp readable _ known) _ (List.mem_cons_self ..)
  exact argument.form_eq

/-- The receiver and the arguments of a readable call yield texts. -/
theorem Node.operandsYieldText_eq {node : Node} {use : Use}
    (callee : node.Fulfils ⟨"callee", .node, use⟩)
    (role : ∀ called, node.field "callee" = .node called → .receiver ∈ use.roles called)
    (operands : node.Fulfils ⟨"arguments", .nodes, .rendered⟩) :
    node.operandsYieldText = true := by
  have receiver : node.calledObject.form = .text := by
    unfold Node.calledObject
    split
    · next called held =>
        obtain ⟨_, ⟨⟩, roles⟩ := callee.node_of_field? (.inl rfl) (Node.field?_node held)
        have object : called.Fulfils ⟨"object", .node, .rendered⟩ :=
          readableAs_iff.mp (roles _ (role called held)) _ (List.mem_singleton_self _)
        exact object.form_eq
    · rfl
  unfold Node.operandsYieldText
  rw [receiver, operands.itemsYieldText]
  rfl

/-! ## What readable nodes provide -/

theorem Rule.asCall_readable {construction : Node}
    (readable : Part.construction.IsReadable construction) :
    (Rule.asCall construction).Readable := by
  have known : Construct.ofKind? (Rule.asCall construction).kind = some .call := rfl
  refine (Node.readable_iff_parts known).mpr (List.forall_mem_singleton.mpr ?_)
  exact fun reading listed => (readable reading listed).of_field_eq rfl

/-- The name of a declaration is a text. -/
theorem Rule.asDeclaration_named (function : Node) (name : String) :
    Part.entry.IsReadable (Rule.asDeclaration function name) := by
  refine List.forall_mem_singleton.mpr ⟨trivial, ?_⟩
  rw [Rule.asDeclaration_id]
  refine List.forall_mem_singleton.mpr (List.forall_mem_singleton.mpr ?_)
  refine readableAs_iff.mpr (List.forall_mem_singleton.mpr ⟨.inr ⟨name, rfl⟩, ?_⟩)
  exact List.forall_mem_nil _

/-- A declaration made of a readable function is readable. -/
theorem Rule.asDeclaration_readable {function : Node}
    (readable : Part.declaration.IsReadable function) (name : String) :
    (Rule.asDeclaration function name).Readable := by
  have known : Construct.ofKind? (Rule.asDeclaration function name).kind =
      some .functionDeclaration := rfl
  have kept : ∀ reading ∈ Part.declaration.readings,
      (Rule.asDeclaration function name).Fulfils reading := by
    intro reading listed
    have other : reading.field ≠ "id" := by
      revert listed reading
      decide
    exact (readable reading listed).of_field_eq (Rule.asDeclaration_field other function name)
  rw [Node.readable_iff_parts known]
  simp only [Construct.parts, List.forall_mem_cons, List.not_mem_nil, false_implies, implies_true,
    and_true]
  refine ⟨?_, List.forall_mem_nil _, Rule.asDeclaration_named function name, ?_, ?_⟩
  · exact fun reading listed => kept reading (List.mem_append_left [_] listed)
  · exact List.forall_mem_singleton.mpr (kept _ (List.mem_cons_self ..))
  · exact fun reading listed => kept reading
      (List.mem_append_right Part.parameters.readings listed)

/-- An assignment of readable nodes is readable. -/
theorem Rule.defaultAssignment_readable {function target default : Node}
    (readable : target.Readable) (readableDefault : default.Readable) :
    (Rule.defaultAssignment function (.node target) (.node default)).Readable := by
  have known : Construct.ofKind?
      (Rule.defaultAssignment function (.node target) (.node default)).kind = some .binary := rfl
  rw [Node.readable_iff_parts known]
  simp only [Construct.parts, List.forall_mem_cons, List.not_mem_nil, false_implies, implies_true,
    and_true]
  refine ⟨?_, ?_, List.forall_mem_nil _⟩
  · exact List.forall_mem_singleton.mpr
      ⟨.inr ⟨target, rfl⟩, List.forall_mem_singleton.mpr readable⟩
  · exact List.forall_mem_singleton.mpr
      ⟨.inr ⟨default, rfl⟩, List.forall_mem_singleton.mpr readableDefault⟩

/-- The sides of a parameter with a default of its own. -/
theorem Node.Fulfils.pattern_sides {function param : Node} {items : List Value} {left right : Value}
    (fulfils : function.Fulfils ⟨"params", .nodes, .parameter⟩)
    (held : (function.field "params").items = .ok items) (inside : .node param ∈ items)
    (kind : param.kind = "AssignmentPattern") (foundLeft : param.field? "left" = some left)
    (foundRight : param.field? "right" = some right) :
    ∃ target default, left = .node target ∧ right = .node default ∧
      target.Readable ∧ default.Readable := by
  obtain ⟨_, ⟨⟩, roles⟩ := fulfils.node_of_item (.inl rfl) held inside
  simp only [Use.roles, if_pos kind, List.mem_singleton, forall_eq] at roles
  have sides := readableAs_iff.mp roles
  obtain ⟨target, rfl, readable⟩ := (sides _ (List.mem_cons_self ..)).node_of_field? (.inl rfl) foundLeft
  obtain ⟨default, rfl, readableDefault⟩ :=
    (sides _ (List.mem_cons_of_mem _ (List.mem_singleton_self _))).node_of_field? (.inl rfl)
      foundRight
  exact ⟨target, default, rfl, rfl, fun role known => readable role (List.mem_append_left _ known),
    readableDefault⟩

/-- A default that is listed. -/
theorem Node.Fulfils.default {function : Node} {index : Nat} {default : Value}
    (fulfils : function.Fulfils ⟨"defaults", .holedNodes, .rendered⟩)
    (given : (function.field "defaults").itemAt index = .ok default)
    (something : default.isNull = false) : ∃ child, default = .node child ∧ child.Readable := by
  rcases fulfils.1 with nothing | ⟨items, listed, -⟩
  · simp only at nothing
    rw [nothing] at given
    cases given
  · simp only at listed
    rw [listed, Value.itemAt_list] at given
    cases held : items[index]? with
    | none =>
        rw [held] at given
        cases given
        cases something
    | some item =>
        rw [held] at given
        cases given
        exact fulfils.node_of_item (.inr ⟨.inl rfl, something⟩) (congrArg Value.items listed)
          (List.mem_of_getElem? held)

/-- What a readable node provides is a readable node. -/
theorem Source.Provides.readable {node : Node} {part : Part} {source : Source} {value : Value}
    (provided : source.Provides node part value) (readable : part.IsReadable node) :
    ∃ child, value = .node child ∧ child.Readable := by
  cases provided with
  | call read =>
      subst read
      exact ⟨_, rfl, Rule.asCall_readable readable⟩
  | declaration read name =>
      subst read
      exact ⟨_, rfl, Rule.asDeclaration_readable readable name⟩
  | field listed single found direct =>
      obtain ⟨child, rfl, roles⟩ := (readable _ listed).node_of_field? single found
      refine ⟨child, rfl, fun role known => roles role ?_⟩
      rcases direct with rfl | rfl
      · exact known
      · exact List.mem_append_left _ known
  | item listed several held place rendered =>
      obtain ⟨child, rfl, roles⟩ := (readable _ listed).node_of_item several held
        (List.mem_of_getElem? place)
      exact ⟨child, rfl, fun role known => roles role (rendered child rfl role known)⟩
  | receiver listed held role found =>
      obtain ⟨_, ⟨⟩, roles⟩ := (readable _ listed).node_of_field? (.inl rfl) (Node.field?_node held)
      have object := readableAs_iff.mp (roles _ role) _ (List.mem_singleton_self _)
      exact object.node_of_field? (.inl rfl) found
  | @declarator start items index value listed held kind declared place =>
      obtain ⟨_, ⟨⟩, roles⟩ :=
        (readable _ listed).node_of_field? (.inl rfl) (Node.field?_node held)
      have known : Construct.ofKind? start.kind = some .variableDeclaration := by
        rw [kind]
        rfl
      have declarations : start.Fulfils ⟨"declarations", .nodes, .rendered⟩ :=
        (Node.readable_iff_parts known).mp roles (.children "declarations")
          (List.mem_singleton_self _) _ (List.mem_singleton_self _)
      exact declarations.node_of_item (.inl rfl) declared (List.mem_of_getElem? place)
  | method listed held name =>
      obtain ⟨_, ⟨⟩, roles⟩ :=
        (readable _ listed).node_of_field? (.inl rfl) (Node.field?_node held)
      have parts := readableAs_construct_iff.mp (roles _ (List.mem_singleton_self _))
      exact ⟨_, rfl, Rule.asDeclaration_readable (parts _ (List.mem_singleton_self _)) name⟩
  | pattern listed held place kind left right =>
      obtain ⟨target, default, rfl, rfl, first, second⟩ :=
        (readable _ listed).pattern_sides held (List.mem_of_getElem? place) kind left right
      exact ⟨_, rfl, Rule.defaultAssignment_readable first second⟩
  | defaulted listed held place kind listedDefaults given something =>
      obtain ⟨param, ⟨⟩, roles⟩ :=
        (readable _ listed).node_of_item (.inl rfl) held (List.mem_of_getElem? place)
      simp only [Use.roles, if_neg kind] at roles
      obtain ⟨default, rfl, second⟩ := (readable _ listedDefaults).default given something
      exact ⟨_, rfl, Rule.defaultAssignment_readable roles second⟩

/-- What a readable node provides yields a text. -/
theorem Source.Provides.form_eq {node : Node} {part : Part} {source : Source} {value : Value}
    (provided : source.Provides node part value) (readable : part.IsReadable node) :
    value.form = .text := by
  obtain ⟨child, rfl, roles⟩ := provided.readable readable
  exact Node.Readable.form_eq roles

/-! ## Checking trees -/

def Shape.accepts : Shape → Value → Bool
  | .anything, _ => true
  | .text, value => value.isNull || value.text?.isSome
  | .node, value => value.isNull || value.node?.isSome
  | .nodes, .list items => items.all fun item => item.node?.isSome
  | .holedNodes, .list items => items.all fun item => item.isNull || item.node?.isSome
  | .nodeOrNodes, .list items => items.all fun item => item.isNull || item.node?.isSome
  | .nodeOrNodes, value => value.isNull || value.node?.isSome
  | _, value => value.isNull

def Node.checkReadable : Nat → Role → Node → Bool
  | 0, _, _ => false
  | depth + 1, role, node =>
      role.readings.all fun reading =>
        reading.shape.accepts (node.field reading.field) &&
          (Node.nodesOf (node.field reading.field)).all fun child =>
            (reading.use.roles child).all fun inner => checkReadable depth inner child

theorem Value.eq_node_of_isSome {value : Value} (found : value.node?.isSome = true) :
    ∃ node, value = .node node := by
  cases value with
  | node node => exact ⟨node, rfl⟩
  | scalar scalar => cases found
  | list items => cases found
  | record members => cases found
  | foreign origin => cases found

theorem Value.null_or_node {value : Value}
    (found : (value.isNull || value.node?.isSome) = true) :
    value = .null ∨ ∃ node, value = .node node :=
  (Bool.or_eq_true_iff.mp found).imp Value.eq_null_of_isNull Value.eq_node_of_isSome

theorem Shape.admits_of_accepts {shape : Shape} {value : Value}
    (accepted : shape.accepts value = true) : shape.Admits value := by
  cases shape with
  | anything => trivial
  | text =>
      rcases Bool.or_eq_true_iff.mp accepted with nothing | some
      · exact .inl (Value.eq_null_of_isNull nothing)
      · obtain ⟨letters, found⟩ := Option.isSome_iff_exists.mp some
        exact .inr ⟨letters, Value.eq_text found⟩
  | node => exact Value.null_or_node accepted
  | nodes =>
      cases value with
      | list items =>
          refine .inr ⟨items, rfl, fun item inside => ?_⟩
          exact Value.eq_node_of_isSome (List.all_eq_true.mp accepted item inside)
      | _ => exact .inl (Value.eq_null_of_isNull accepted)
  | holedNodes =>
      cases value with
      | list items =>
          refine .inr ⟨items, rfl, fun item inside => ?_⟩
          exact Value.null_or_node (List.all_eq_true.mp accepted item inside)
      | _ => exact .inl (Value.eq_null_of_isNull accepted)
  | nodeOrNodes =>
      cases value with
      | list items =>
          refine .inr (.inr ⟨items, rfl, fun item inside => ?_⟩)
          exact Value.null_or_node (List.all_eq_true.mp accepted item inside)
      | node node => exact .inr (.inl ⟨node, rfl⟩)
      | scalar scalar => exact (Value.null_or_node accepted).imp_right .inl
      | record members => cases accepted
      | foreign origin => cases accepted

theorem readableAs_of_check {depth : Nat} {role : Role} {node : Node}
    (checked : node.checkReadable depth role = true) : ReadableAs role node := by
  induction depth generalizing role node with
  | zero => cases checked
  | succ depth ih =>
      have each := List.all_eq_true.mp checked
      refine .intro (fun reading listed => ?_) fun reading listed child inside inner known => ?_
      · exact Shape.admits_of_accepts (Bool.and_eq_true_iff.mp (each reading listed)).1
      · have below := List.all_eq_true.mp (Bool.and_eq_true_iff.mp (each reading listed)).2
        exact ih (List.all_eq_true.mp (below child inside) inner known)

/-- A node is readable when the check of its construct says so. -/
theorem Node.readable_of_check (depth : Nat) {node : Node}
    (checked : ((Role.ofKind node.kind).all fun role => node.checkReadable depth role) = true) :
    node.Readable :=
  fun role known => readableAs_of_check (List.all_eq_true.mp checked role known)

end PhpRendering
