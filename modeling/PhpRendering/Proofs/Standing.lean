import PhpRendering.Proofs.Depth
import PhpRendering.Proofs.Enclosing
import PhpRendering.Proofs.Region

/-!
# Rendered nodes and their tree

Whatever is rendered is a node of the tree, a copy of one, or an assignment made of two
of its values. A copy stands at the place of its original and is a function exactly when
the original is one, so copies do not change which functions lie around a place.
-/

namespace PhpRendering

/-! ## Functions among the nodes of a tree -/

namespace Node.Leads

variable {root node : Node}

theorem isFunctionAt_iff (isRoot : root.IsRoot) (leads : root.Leads node) :
    (Value.node root).isFunctionAt node.origin.steps = true ↔
      (node.kind = "FunctionDeclaration" ∨ node.kind = "FunctionExpression") ∨
        (Value.node root).isMethodPlace node.origin.steps = true := by
  simp [Value.isFunctionAt, (leads.descendant isRoot).1]

/-- The function of a method is the only field with a place of its own kind. -/
theorem isMethodPlace_field (isRoot : root.IsRoot) (leads : root.Leads node) (name : String) :
    (Value.node root).isMethodPlace (.member name :: node.origin.steps) = true ↔
      name = "value" ∧ node.kind = "MethodDefinition" := by
  simp [Value.isMethodPlace, (leads.descendant isRoot).1, Value.isOfKind]

end Node.Leads

/-! ## Copies at the places of their originals -/

/-- Whether a node is rendered for a node of a tree: at its place, with its fields but
for the name of a declaration, and as a function exactly when there is one. -/
structure Node.StandsFor (node root original : Node) : Prop where
  leads : root.Leads original
  origin : node.origin = original.origin
  fields : ∀ name, node.field name = original.field name ∨
    node.kind = "FunctionDeclaration" ∧ name = "id"
  function : (Value.node root).isFunctionAt node.origin.steps = true ↔
    node.kind = "FunctionDeclaration" ∨ node.kind = "FunctionExpression"
  kind : node.kind = original.kind ∨ node.kind = "FunctionDeclaration" ∨
    node.kind = "CallExpression" ∧ original.kind = "NewExpression"

/-- Whether a value, if it is a node, is a node of a tree at a place and no function of a
method there. -/
def Value.StandsAt (value : Value) (root : Node) (origin : Origin) : Prop :=
  ∀ node, value = .node node → node.StandsFor root node ∧ node.origin = origin

namespace Node.Leads

variable {root parent : Node}

theorem standsFor (isRoot : root.IsRoot) {node : Node} (leads : root.Leads node)
    (own : (Value.node root).isMethodPlace node.origin.steps = false) :
    node.StandsFor root node := by
  refine ⟨leads, rfl, fun _ => .inl rfl, ?_, .inl rfl⟩
  rw [leads.isFunctionAt_iff isRoot, own]
  simp

/-- A field that is no function of a method has no place of such a one. -/
theorem isMethodPlace_other (isRoot : root.IsRoot) (leads : root.Leads parent) {name : String}
    (other : name = "value" → parent.kind ≠ "MethodDefinition") :
    (Value.node root).isMethodPlace (parent.origin.down (.member name)).steps = false := by
  rw [Bool.eq_false_iff]
  intro method
  obtain ⟨same, kind⟩ := (leads.isMethodPlace_field isRoot name).mp method
  exact other same kind

theorem field_standsAt (isRoot : root.IsRoot) (leads : root.Leads parent) {name : String}
    (other : name = "value" → parent.kind ≠ "MethodDefinition") :
    (parent.field name).StandsAt root (parent.origin.down (.member name)) := by
  intro child held
  have place := leads.origin_field isRoot held
  refine ⟨(Node.Leads.field leads held).standsFor isRoot ?_, place⟩
  rw [place]
  exact leads.isMethodPlace_other isRoot other

theorem item_standsAt (isRoot : root.IsRoot) (leads : root.Leads parent) {name : String}
    {items : List Value} (listed : (parent.field name).items = .ok items) {index : Nat}
    {value : Value} (place : items[index]? = some value) :
    value.StandsAt root ((parent.origin.down (.member name)).down (.item index)) := by
  rintro child rfl
  have held := Value.eq_list_of_items listed (List.mem_of_getElem? place)
  have origin := leads.origin_item isRoot held place
  refine ⟨(Node.Leads.item leads held place).standsFor isRoot ?_, origin⟩
  rw [origin]
  rfl

end Node.Leads

/-! ## Copies of copies -/

/-- Only entries of objects have a field named value rendered as it is. -/
theorem Construct.eq_property {construct : Construct} {part : Part} {shape : Shape} {use : Use}
    (listed : part ∈ construct.parts) (read : ⟨"value", shape, use⟩ ∈ part.readings)
    (direct : use ≠ .function) : construct = .property := by
  have table : ∀ part ∈ construct.parts, ∀ reading ∈ part.readings, reading.field = "value" →
      reading.use = .function ∨ construct = .property := by
    cases construct <;> decide
  exact (table part listed _ read rfl).resolve_left direct

/-- The names of functions are not rendered. -/
theorem Construct.shape_of_id {part : Part} {shape : Shape} {use : Use}
    (listed : part ∈ Construct.functionDeclaration.parts)
    (read : ⟨"id", shape, use⟩ ∈ part.readings) : shape = .anything := by
  have table : ∀ part ∈ Construct.functionDeclaration.parts, ∀ reading ∈ part.readings,
      reading.field = "id" → reading.shape = .anything := by
    decide
  exact table part listed _ read rfl

theorem Construct.eq_methodDefinition {construct : Construct} {part : Part} {field : String}
    {shape : Shape} (listed : part ∈ construct.parts)
    (read : ⟨field, shape, .function⟩ ∈ part.readings) : construct = .methodDefinition := by
  have table : ∀ part ∈ construct.parts, ∀ reading ∈ part.readings, reading.use = .function →
      construct = .methodDefinition := by
    cases construct <;> decide
  exact table part listed _ read rfl

namespace Node.StandsFor

variable {root node original : Node} {construct : Construct} {part : Part}

/-- A field that is rendered is one of the original. -/
theorem field_eq (stands : node.StandsFor root original)
    (known : Construct.ofKind? node.kind = some construct) (listed : part ∈ construct.parts)
    {field : String} {shape : Shape} {use : Use} (read : ⟨field, shape, use⟩ ∈ part.readings)
    (shaped : shape ≠ .anything) : node.field field = original.field field := by
  rcases stands.fields field with same | ⟨kind, rfl⟩
  · exact same
  · rw [kind] at known
    cases known
    exact absurd (Construct.shape_of_id listed read) shaped

/-- The function of a method is not rendered as it is. -/
theorem ne_method (stands : node.StandsFor root original)
    (known : Construct.ofKind? node.kind = some construct) (listed : part ∈ construct.parts)
    {field : String} {shape : Shape} {use : Use} (read : ⟨field, shape, use⟩ ∈ part.readings)
    (direct : use ≠ .function) : field = "value" → original.kind ≠ "MethodDefinition" := by
  rintro rfl method
  cases Construct.eq_property listed read direct
  rcases stands.kind with same | declaration | ⟨-, construction⟩
  · rw [same, method] at known
    cases known
  · rw [declaration] at known
    cases known
  · exact absurd (method.symm.trans construction) (by decide)

/-- What has its field rendered as a function is a method of the tree. -/
theorem original_of_method (stands : node.StandsFor root original)
    (known : Construct.ofKind? node.kind = some construct) (listed : part ∈ construct.parts)
    {field : String} {shape : Shape} (read : ⟨field, shape, .function⟩ ∈ part.readings) :
    original.kind = "MethodDefinition" := by
  cases Construct.eq_methodDefinition listed read
  have method : node.kind = "MethodDefinition" := Construct.kind_eq known (by decide)
  rcases stands.kind with same | declaration | ⟨call, -⟩
  · exact same.symm.trans method
  · exact absurd (method.symm.trans declaration) (by decide)
  · exact absurd (method.symm.trans call) (by decide)

/-- A construction rendered as a call stands for the same node. -/
theorem asCall (stands : node.StandsFor root original) (kind : node.kind = "NewExpression") :
    (Rule.asCall node).StandsFor root original where
  leads := stands.leads
  origin := stands.origin
  fields name := (stands.fields name).imp_right fun declared =>
    absurd (kind.symm.trans declared.1) (by decide)
  function := by
    rw [Rule.asCall_origin, Rule.asCall_kind, stands.function, kind]
    decide
  kind := by
    rcases stands.kind with same | declaration | ⟨call, -⟩
    · exact .inr (.inr ⟨rfl, same.symm.trans kind⟩)
    · exact absurd (kind.symm.trans declaration) (by decide)
    · exact absurd (kind.symm.trans call) (by decide)

/-- A function rendered as a declaration stands for the same node. -/
theorem asDeclaration (stands : node.StandsFor root original)
    (kind : node.kind = "FunctionExpression") (name : String) :
    (Rule.asDeclaration node name).StandsFor root original where
  leads := stands.leads
  origin := stands.origin
  fields field := by
    by_cases named : field = "id"
    · exact .inr ⟨rfl, named⟩
    · rw [Rule.asDeclaration_field named]
      exact .inl ((stands.fields field).resolve_right fun declared => named declared.2)
  function := by
    rw [Rule.asDeclaration_origin, stands.function]
    exact ⟨fun _ => .inl rfl, fun _ => .inr kind⟩
  kind := .inr (.inl rfl)

end Node.StandsFor

/-- A node of a tree at the place of a function, rendered as a declaration. -/
theorem Node.Leads.asDeclaration_standsFor {root function : Node} (leads : root.Leads function)
    (placed : (Value.node root).isFunctionAt function.origin.steps = true) (name : String) :
    (Rule.asDeclaration function name).StandsFor root function where
  leads := leads
  origin := rfl
  fields field := by
    by_cases named : field = "id"
    · exact .inr ⟨rfl, named⟩
    · exact .inl (Rule.asDeclaration_field named function name)
  function := ⟨fun _ => .inl rfl, fun _ => placed⟩
  kind := .inr (.inl rfl)

/-! ## What is rendered of a tree -/

inductive Node.HasRendered (root : Node) : Node → List Origin → Prop where
  | standing {node original : Node} (stands : node.StandsFor root original) :
      HasRendered root node [node.origin]
  | assignment (function : Node) {target default : Value} {left right : Origin}
      (first : target.StandsAt root left) (second : default.StandsAt root right)
      (apart : left.Apart right) :
      HasRendered root (Rule.defaultAssignment function target default) [left, right]

namespace Source.Provides

variable {root node original : Node} {construct : Construct} {part : Part} {source : Source}
  {value : Value}

/-- A value that a node has rendered as it is stands in the region of its source. -/
theorem standsAt (isRoot : root.IsRoot) (stands : node.StandsFor root original)
    (known : Construct.ofKind? node.kind = some construct) (listed : part ∈ construct.parts)
    {field : String} {shape : Shape} {use : Use} (read : ⟨field, shape, use⟩ ∈ part.readings)
    (shaped : shape ≠ .anything) (direct : use ≠ .function) :
    (node.field field).StandsAt root (node.origin.down (.member field)) := by
  rw [stands.field_eq known listed read shaped, stands.origin]
  exact stands.leads.field_standsAt isRoot (stands.ne_method known listed read direct)

/-- Whatever node is rendered of a node of a tree is rendered for the regions of its
source. -/
theorem hasRendered (isRoot : root.IsRoot) (stands : node.StandsFor root original)
    (known : Construct.ofKind? node.kind = some construct) (listed : part ∈ construct.parts)
    {child : Node} (provided : source.Provides node part (.node child)) :
    root.HasRendered child (source.regions node.origin) := by
  have same {field : String} {shape : Shape} {use : Use} (read : ⟨field, shape, use⟩ ∈ part.readings)
      (shaped : shape ≠ .anything) : node.field field = original.field field :=
    stands.field_eq known listed read shaped
  have standing {child : Node} {origin : Origin}
      (placed : (Value.node child).StandsAt root origin) : root.HasRendered child [origin] := by
    obtain ⟨itself, rfl⟩ := placed child rfl
    exact .standing itself
  cases provided with
  | call read =>
      subst read
      cases Construct.eq_construction listed
      have kind : node.kind = "NewExpression" := Construct.kind_eq known (by decide)
      exact .standing (stands.asCall kind)
  | declaration read name =>
      subst read
      cases Construct.eq_functionExpression listed
      have kind : node.kind = "FunctionExpression" := Construct.kind_eq known (by decide)
      exact .standing (stands.asDeclaration kind name)
  | @field field shape use _ read single found direct =>
      have shaped : shape ≠ .anything := by
        rcases single with rfl | ⟨rfl, _⟩ <;> decide
      have use : use ≠ .function := by
        rcases direct with rfl | rfl <;> decide
      have placed := standsAt isRoot stands known listed read shaped use
      rw [Node.field_of_field? found] at placed
      exact standing placed
  | @item field shape use items index value read several held place rendered =>
      have shaped : shape ≠ .anything := by
        rcases several with rfl | ⟨rfl | rfl, _⟩ <;> decide
      rw [same read shaped] at held
      have placed := stands.leads.item_standsAt isRoot held place
      rw [← stands.origin] at placed
      exact standing placed
  | @receiver use callee value read held role found =>
      rw [same read (by decide)] at held
      have toCallee := Node.Leads.field stands.leads held
      have placed : (callee.field "object").StandsAt root _ :=
        toCallee.field_standsAt isRoot fun same => absurd same (by decide)
      rw [Node.field_of_field? found, stands.leads.origin_field isRoot held, ← stands.origin] at placed
      exact standing placed
  | @declarator start items index value read held kind declared place =>
      rw [same read (by decide)] at held
      have toStart := Node.Leads.field stands.leads held
      have placed := toStart.item_standsAt isRoot declared place
      rw [stands.leads.origin_field isRoot held, ← stands.origin] at placed
      exact standing placed
  | @method function read held name =>
      have method := stands.original_of_method known listed read
      rw [same read (by decide)] at held
      have toFunction := Node.Leads.field stands.leads held
      have place := stands.leads.origin_field isRoot held
      have function : (Value.node root).isFunctionAt function.origin.steps = true := by
        refine (toFunction.isFunctionAt_iff isRoot).mpr (.inr ?_)
        rw [place]
        exact (stands.leads.isMethodPlace_field isRoot "value").mpr ⟨rfl, method⟩
      rw [← stands.origin] at place
      have declared := Node.HasRendered.standing (toFunction.asDeclaration_standsFor function name)
      rw [Rule.asDeclaration_origin, place] at declared
      exact declared
  | @pattern items index param target default read held place kind left right =>
      rw [same read (by decide)] at held
      have list := Value.eq_list_of_items held (List.mem_of_getElem? place)
      have toParam := Node.Leads.item stands.leads list place
      have first : (param.field "left").StandsAt root _ :=
        toParam.field_standsAt isRoot fun same => absurd same (by decide)
      have second : (param.field "right").StandsAt root _ :=
        toParam.field_standsAt isRoot fun same => absurd same (by decide)
      rw [Node.field_of_field? left] at first
      rw [Node.field_of_field? right] at second
      have assigned := Node.HasRendered.assignment node first second
        (Origin.apart_of_step_ne (by decide) param.origin)
      rw [stands.leads.origin_item isRoot list place, ← stands.origin] at assigned
      exact assigned
  | @defaulted items index param default read held place kind readDefaults given something =>
      rw [same read (by decide)] at held
      rw [same readDefaults (by decide)] at given
      obtain ⟨defaults, listedDefaults, placeDefault⟩ := Value.getElem?_of_itemAt given something
      have first := stands.leads.item_standsAt isRoot held place
      have second := stands.leads.item_standsAt isRoot listedDefaults placeDefault
      have assigned := Node.HasRendered.assignment node first second
        ((Origin.apart_of_step_ne (by decide) original.origin).mono (.down _ _) (.down _ _))
      rw [← stands.origin] at assigned
      exact assigned

end Source.Provides

end PhpRendering
