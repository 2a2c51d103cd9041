import PhpRendering.Proofs.Emitted

/-!
# Coverage of emitted positions

The tasks of a node cover a way to a function when the way goes through the region of
something that is rendered. When a node is rendered without an obstacle, its tasks cover
every way through one of its emitted fields.
-/

namespace PhpRendering

/-- Whether a way goes through the region of something that some tasks render. -/
def Covers (tasks : List Task) (origin : Origin) (target : List Step) : Prop :=
  ∃ source value place, .visit source value place ∈ tasks ∧
    ∃ region ∈ source.regions origin, region.steps <:+ target

namespace Covers

variable {root : Value} {origin : Origin} {target : List Step} {tasks others : List Task}

theorem mono (covers : Covers tasks origin target) (more : tasks ⊆ others) :
    Covers others origin target := by
  obtain ⟨source, value, place, held, through⟩ := covers
  exact ⟨source, value, place, more held, through⟩

theorem left (covers : Covers tasks origin target) : Covers (tasks ++ others) origin target :=
  covers.mono (List.subset_append_left _ _)

theorem right (covers : Covers others origin target) : Covers (tasks ++ others) origin target :=
  covers.mono (List.subset_append_right _ _)

/-- A rendered value covers what lies in its region. -/
theorem of_visit {source : Source} {value : Value} {place : Position} {region : Origin}
    (held : .visit source value place ∈ tasks) (inside : region ∈ source.regions origin)
    (through : region.steps <:+ target) : Covers tasks origin target :=
  ⟨source, value, place, held, region, inside, through⟩

/-- A rendered field covers the ways through it. -/
theorem child {field : String} {place : Position} {value : Value}
    (heads : root.Heads (origin.down (.member field)).steps target) :
    Covers (Task.child field place value) origin target :=
  of_visit (List.mem_singleton_self _) (List.mem_singleton_self _) heads.below

/-- What has to be texts is rendered all the same. -/
theorem wanting {fits : Bool} (covers : Covers tasks origin target) :
    Covers (Task.wanting fits tasks) origin target := by
  obtain ⟨source, value, place, held, through⟩ := covers
  exact ⟨source, value, place, Task.visit_mem_wanting_iff.mpr held, through⟩

theorem text {field : String} {place : Position} {value : Value}
    (heads : root.Heads (origin.down (.member field)).steps target) :
    Covers (Task.text field place value) origin target :=
  (child heads).wanting

end Covers

/-! ## Tasks that are not stopped -/

namespace Task

variable {node : Node} {field : String}

theorem needed_of_found {value : Value} (found : node.field? field = some value)
    (next : Value → List Task) : needed node field next = next value := by
  unfold needed Node.require
  rw [found]

@[simp]
theorem shaped_ok {α : Type} (found : α) (next : α → List Task) :
    shaped (.ok found) next = next found := rfl

theorem optional_of_found {value : Value} (found : node.field? field = some value)
    (next : Value → List Task) : optional node field next = next value := by
  unfold optional
  rw [found]

theorem mem_items {source : Nat → Source} {position : Nat → Position} {skips : Bool}
    {values : List Value} {index : Nat} {value : Value} (place : values[index]? = some value)
    (something : value.isNull = false) :
    .visit (source index) value (position index) ∈ items source position skips values := by
  refine List.mem_flatMap.mpr ⟨(value, index), List.mem_zipIdx_iff_getElem?.mpr place, ?_⟩
  rw [something, Bool.and_false]
  exact List.mem_singleton_self _

theorem mem_texts {source : Nat → Source} {position : Position} {values : List Value} {index : Nat}
    {value : Value} (place : values[index]? = some value) :
    .visit (source index) value position ∈ texts source position values :=
  List.mem_flatMap.mpr ⟨(value, index), List.mem_zipIdx_iff_getElem?.mpr place,
    visit_mem_wanting_iff.mpr (List.mem_singleton_self _)⟩

end Task

/-! ## Lists -/

namespace Covers

variable {root : Value} {node : Node} {target : List Step} {outer : Origin}

/-- The rendered items of a list cover the ways through it. -/
theorem listed {value : Value} {items : List Value} {source : Nat → Source} {place : Nat → Position}
    {skips : Bool} (heads : root.Heads outer.steps target) (held : root.descendant outer.steps = value)
    (listed : value.items = .ok items)
    (regions : ∀ index, outer.down (.item index) ∈ (source index).regions node.origin) :
    Covers (Task.items source place skips items) node.origin target := by
  rcases heads.node_or_list with ⟨found, same⟩ | ⟨known, same⟩
  · rw [← held, same] at listed
    cases listed
  · rw [← held, same] at listed
    cases listed
    obtain ⟨index, item, there, -, something, further⟩ := heads.item same
    exact of_visit (Task.mem_items there something) (regions index) further.below

/-- So do items of which a text each is wanted at once. -/
theorem listedTexts {value : Value} {items : List Value} {source : Nat → Source} {place : Position}
    (heads : root.Heads outer.steps target) (held : root.descendant outer.steps = value)
    (listed : value.items = .ok items)
    (regions : ∀ index, outer.down (.item index) ∈ (source index).regions node.origin) :
    Covers (Task.texts source place items) node.origin target := by
  rcases heads.node_or_list with ⟨found, same⟩ | ⟨known, same⟩
  · rw [← held, same] at listed
    cases listed
  · rw [← held, same] at listed
    cases listed
    obtain ⟨index, item, there, -, -, further⟩ := heads.item same
    exact of_visit (Task.mem_texts there) (regions index) further.below

variable {field : String} (heads : root.Heads (node.origin.down (.member field)).steps target)
  (held : root.descendant (node.origin.down (.member field)).steps = node.field field)
include heads held

/-- A way goes through a list that may be absent only where it is a list. -/
theorem items_of_optionalItems {items : List Value} (fine : node.optionalItems field = .ok items) :
    (node.field field).items = .ok items := by
  rcases heads.node_or_list with ⟨found, same⟩ | ⟨known, same⟩
  · rw [held] at same
    unfold Node.optionalItems Node.flag at fine
    rw [same] at fine
    cases fine
  · rw [held] at same
    rw [Node.optionalItems_of_list same] at fine
    rw [same]
    exact fine

/-- A list that may be absent covers the ways through it. -/
theorem optionalItems {skips : Bool} (silent : Silent (Task.optionalItems node field skips)) :
    Covers (Task.optionalItems node field skips) node.origin target := by
  obtain ⟨items, fine, -⟩ := Silent.shaped_iff.mp silent
  rw [Task.optionalItems, fine, Task.shaped_ok]
  exact listed heads held (items_of_optionalItems heads held fine) fun index =>
    List.mem_singleton_self _

/-- A list of statements covers the ways through it. -/
theorem sequence {list : Value} (same : list = node.field field)
    (silent : Silent (Task.sequence node field list)) :
    Covers (Task.sequence node field list) node.origin target := by
  obtain ⟨-, silent⟩ := Silent.wanting_iff.mp silent
  obtain ⟨items, fine, -⟩ := Silent.shaped_iff.mp silent
  rw [Task.sequence, fine, Task.shaped_ok]
  exact (listed heads (held.trans same.symm) fine fun index => List.mem_singleton_self _).wanting

end Covers

/-! ## Parts -/

def Part.emittedFields : Part → List String
  | .child field => [field]
  | .text field => [field]
  | .side field => [field]
  | .optionalChild field => [field]
  | .optionalText field => [field]
  | .children field => [field]
  | .optionalChildren field => [field]
  | .clauses field => [field]
  | .elements field => [field]
  | .statements field => [field]
  | .optionalStatements field => [field]
  | .call => ["callee", "arguments"]
  | .access => ["object", "property"]
  | .parameters => ["params", "defaults"]
  | .superclass => ["superClass"]
  | .method => ["value"]
  | .entryValue => ["value"]
  | .alternate => ["alternate"]
  | .loopStart => ["init"]
  | .moduleBody => ["body"]
  | .exported => ["declaration", "specifiers"]
  | _ => []

section

variable {root : Value} {node : Node} {target : List Step} {options : Options} {position : Position}

/-- No way goes through the property of a member access that has a substitute: it is an
identifier. -/
theorem Value.Heads.not_accessed {member : Node} {outer : List Step}
    (heads : root.Heads (.member "property" :: outer) target)
    (held : root.descendant (.member "property" :: outer) = member.field "property")
    {name : String} (accessed : member.accessedName = .ok name) (named : name ≠ "") : False := by
  unfold Node.accessedName at accessed
  split at accessed
  · cases accessed
    exact named rfl
  · split at accessed
    · next property same =>
        split at accessed
        · next kind =>
            rw [same] at held
            have declaration : property.kind ≠ "FunctionDeclaration" := by
              rw [kind]
              decide
            have expression : property.kind ≠ "FunctionExpression" := by
              rw [kind]
              decide
            obtain ⟨inner, emits, -⟩ :=
              heads.member_of_not_function held (root.isMethodPlace_of_ne (by decide) outer)
                declaration expression
            have known : Construct.ofKind? property.kind = some .identifier := by
              rw [kind]
              rfl
            cases Node.emits_construct known emits
        · cases accessed
          exact named rfl
    · cases accessed
      exact named rfl

namespace Part

/-- The receiver of a call with a substitute covers the ways through its callee. -/
theorem receiver_covers {called : Node} {substitute : Substitute}
    (asked : Rule.methodSubstitute? options called = .ok (some substitute))
    (same : node.field "callee" = .node called)
    (silent : Silent (Task.callReceiver node))
    (held : root.descendant (node.origin.down (.member "callee")).steps = node.field "callee")
    (heads : root.Heads (node.origin.down (.member "callee")).steps target) :
    Covers (Task.callReceiver node) node.origin target := by
  rw [same] at held
  have kind := Rule.kind_of_methodSubstitute? asked
  have declaration : called.kind ≠ "FunctionDeclaration" := by
    rw [kind]
    decide
  have expression : called.kind ≠ "FunctionExpression" := by
    rw [kind]
    decide
  obtain ⟨inner, emits, further, down⟩ :=
    heads.member_of_not_function held (root.isMethodPlace_of_ne (by decide) _) declaration expression
  have known : Construct.ofKind? called.kind = some .member := by
    rw [kind]
    rfl
  rcases List.mem_cons.mp (Node.emits_construct known emits) with rfl | last
  · obtain ⟨callee, found, silent⟩ := Silent.needed_iff.mp silent
    obtain ⟨bearer, shaped, silent⟩ := Silent.shaped_iff.mp silent
    obtain ⟨object, foundObject, -⟩ := Silent.needed_iff.mp silent
    unfold Task.callReceiver
    rw [Task.needed_of_found found, shaped, Task.shaped_ok, Task.receiver,
      Task.needed_of_found foundObject]
    exact .of_visit (List.mem_singleton_self _) (List.mem_singleton_self _) further.below
  · cases List.mem_singleton.mp last
    obtain ⟨name, accessed, listed⟩ := Rule.methodSubstitute?_found asked
    exact (further.not_accessed down accessed (SubstituteTable.name_of_find? listed)).elim

/-- Whatever the output of the callee is, the arguments of a call are rendered. -/
theorem continued_covers {callee : Value} (silent : Silent (Task.continued node position callee))
    (held : root.descendant (node.origin.down (.member "arguments")).steps = node.field "arguments")
    (heads : root.Heads (node.origin.down (.member "arguments")).steps target) :
    Covers (Task.continued node position callee) node.origin target := by
  obtain ⟨rest, -, same⟩ := Task.continued_eq node position callee
  rw [same] at silent ⊢
  obtain ⟨-, operands⟩ := Silent.wanting_iff.mp (Silent.append_iff.mp silent).1
  exact (Covers.optionalItems heads held operands).wanting.left

/-- A call covers its callee and its arguments. -/
theorem call_covers (table : options.substitutes = .builtIn)
    (silent : Silent (Part.call.tasks options node position)) {name : String}
    (emitted : name ∈ Part.call.emittedFields)
    (held : root.descendant (node.origin.down (.member name)).steps = node.field name)
    (heads : root.Heads (node.origin.down (.member name)).steps target) :
    Covers (Part.call.tasks options node position) node.origin target := by
  simp only [Part.tasks] at silent ⊢
  obtain ⟨callee, found, silent⟩ := Silent.needed_iff.mp silent
  obtain ⟨called, same, silent⟩ := Silent.shaped_iff.mp silent
  obtain ⟨substitute, asked, silent⟩ := Silent.shaped_iff.mp silent
  rw [Task.needed_of_found found, same, Task.shaped_ok, asked, Task.shaped_ok]
  have there : node.field "callee" = .node called :=
    (Node.field_of_field? found).trans (Value.asNode_eq_ok same)
  cases substitute with
  | none =>
      obtain ⟨-, silent⟩ := Silent.append_iff.mp silent
      rcases List.mem_cons.mp emitted with rfl | last
      · exact (Covers.child heads).left
      · cases List.mem_singleton.mp last
        exact (continued_covers silent held heads).right
  | some substitute =>
      have covered : ∀ tasks, (tasks = Task.callReceiver node ++ Task.arguments node ∨
          tasks = Task.arguments node ++ Task.callReceiver node) → Silent tasks →
            Covers tasks node.origin target := by
        intro tasks cases silent
        rcases List.mem_cons.mp emitted with rfl | last
        · rcases cases with rfl | rfl
          · exact (receiver_covers asked there (Silent.append_iff.mp silent).1 held heads).left
          · exact (receiver_covers asked there (Silent.append_iff.mp silent).2 held heads).right
        · cases List.mem_singleton.mp last
          rcases cases with rfl | rfl
          · exact (Covers.optionalItems heads held (Silent.append_iff.mp silent).2).right
          · exact (Covers.optionalItems heads held (Silent.append_iff.mp silent).1).left
      have takes := Rule.methodSubstitute?_builtIn table asked
      cases substitute with
      | receiverFirst function =>
          exact (covered _ (.inl rfl) (Silent.wanting_iff.mp silent).2).wanting
      | receiverLast function =>
          exact (covered _ (.inr rfl) (Silent.wanting_iff.mp silent).2).wanting
      | charAt => exact covered _ (.inr rfl) silent
      | propertyFunction function => cases takes
      | constant text => cases takes

/-- A member access covers its object and its property. -/
theorem access_covers (table : options.substitutes = .builtIn)
    (silent : Silent (Part.access.tasks options node position)) {name : String}
    (emitted : name ∈ Part.access.emittedFields)
    (held : root.descendant (node.origin.down (.member name)).steps = node.field name)
    (heads : root.Heads (node.origin.down (.member name)).steps target) :
    Covers (Part.access.tasks options node position) node.origin target := by
  simp only [Part.tasks] at silent ⊢
  obtain ⟨object, foundObject, silent⟩ := Silent.needed_iff.mp silent
  obtain ⟨property, foundProperty, silent⟩ := Silent.needed_iff.mp silent
  obtain ⟨substitute, asked, silent⟩ := Silent.shaped_iff.mp silent
  rw [Task.needed_of_found foundObject, Task.needed_of_found foundProperty, asked, Task.shaped_ok]
  cases substitute with
  | none =>
      rcases List.mem_cons.mp emitted with rfl | last
      · exact (Covers.child heads).left
      · cases List.mem_singleton.mp last
        exact (Covers.child heads).right
  | some substitute =>
      rcases List.mem_cons.mp emitted with rfl | last
      · have takes := Rule.propertySubstitute?_builtIn table asked
        cases substitute with
        | propertyFunction function =>
            change Covers (Task.receiver (.field "object") node) node.origin target
            rw [Task.receiver, Task.needed_of_found foundObject]
            exact Covers.child heads
        | receiverFirst function => cases takes
        | receiverLast function => cases takes
        | charAt => cases takes
        | constant text => cases takes
      · cases List.mem_singleton.mp last
        obtain ⟨name, accessed, listed⟩ := Rule.propertySubstitute?_found asked
        exact (heads.not_accessed held accessed (SubstituteTable.name_of_find? listed)).elim

/-- One parameter covers the ways through it. -/
theorem parameter_covers {param : Node} {index : Nat}
    (silent : Silent (Task.parameter node (.node param) index))
    (held : root.descendant ((node.origin.down (.member "params")).down (.item index)).steps =
      .node param)
    (heads : root.Heads ((node.origin.down (.member "params")).down (.item index)).steps target) :
    Covers (Task.parameter node (.node param) index) node.origin target := by
  obtain ⟨default, given, silent⟩ := Silent.shaped_iff.mp silent
  unfold Task.parameter
  rw [given, Task.shaped_ok, Value.asNode, Task.shaped_ok]
  by_cases pattern : param.kind = "AssignmentPattern"
  · have declaration : param.kind ≠ "FunctionDeclaration" := by
      rw [pattern]
      decide
    have expression : param.kind ≠ "FunctionExpression" := by
      rw [pattern]
      decide
    obtain ⟨side, emits, further, -⟩ :=
      heads.member_of_not_function held rfl declaration expression
    simp only [Node.emits, pattern, Bool.false_eq_true, if_false, if_true] at emits
    rw [Value.asNode, Task.shaped_ok, if_pos pattern] at silent
    obtain ⟨left, foundLeft, silent⟩ := Silent.needed_iff.mp silent
    obtain ⟨right, foundRight, silent⟩ := Silent.needed_iff.mp silent
    rw [if_pos pattern, Task.needed_of_found foundLeft, Task.needed_of_found foundRight]
    rcases List.mem_cons.mp (List.contains_iff_mem.mp emits) with rfl | last
    · exact .of_visit (List.mem_singleton_self _) (List.mem_cons_self ..) further.below
    · cases List.mem_singleton.mp last
      exact .of_visit (List.mem_singleton_self _)
        (List.mem_cons_of_mem _ (List.mem_singleton_self _)) further.below
  · rw [if_neg pattern]
    split
    · exact .of_visit (List.mem_singleton_self _) (List.mem_singleton_self _) heads.below
    · exact .of_visit (List.mem_singleton_self _) (List.mem_cons_self ..) heads.below

/-- An entry of the list of defaults is covered by the parameter at its place. -/
theorem default_covers {param : Node} {index : Nat} {default : Value} {entries : List Value}
    (listed : node.field "defaults" = .list entries) (place : entries[index]? = some default)
    (something : default.isNull = false) (plain : param.kind ≠ "AssignmentPattern")
    (heads : root.Heads ((node.origin.down (.member "defaults")).down (.item index)).steps target) :
    Covers (Task.parameter node (.node param) index) node.origin target := by
  have set : node.flag "defaults" = true := by
    unfold Node.flag
    rw [listed]
    cases entries with
    | nil => cases place
    | cons first rest => rfl
  unfold Task.parameter Rule.defaults
  rw [if_pos set, listed, Value.itemAt_list, place, Task.shaped_ok, Value.asNode, Task.shaped_ok,
    if_neg plain, if_neg]
  · exact .of_visit (List.mem_singleton_self _) (List.mem_cons_of_mem _ (List.mem_singleton_self _))
      heads.below
  · rw [Option.getD_some, something]
    exact Bool.false_ne_true

/-- The parameters of a function cover the ways through them and through the defaults that
are used. -/
theorem parameters_covers (readable : Part.parameters.IsReadable node)
    (silent : Silent (Part.parameters.tasks options node position))
    (rooted : ∀ name ∈ Part.parameters.emittedFields,
      root.descendant (node.origin.down (.member name)).steps = node.field name) {name : String}
    (emitted : name ∈ Part.parameters.emittedFields)
    (heads : root.Heads (node.origin.down (.member name)).steps target) :
    Covers (Part.parameters.tasks options node position) node.origin target := by
  have params : node.Fulfils ⟨"params", .nodes, .parameter⟩ := readable _ (by decide)
  have defaults : node.Fulfils ⟨"defaults", .holedNodes, .rendered⟩ := readable _ (by decide)
  have single {items : List Value} {param : Node} {index : Nat}
      (listed : node.field "params" = .list items) (place : items[index]? = some (.node param)) :
      (Silent (Task.parameter node (.node param) index)) ∧
        (Covers (Task.parameter node (.node param) index) node.origin target →
          Covers (Part.parameters.tasks options node position) node.origin target) := by
    have among : (Value.node param, index) ∈ items.zipIdx := List.mem_zipIdx_iff_getElem?.mpr place
    simp only [Part.tasks, Node.optionalItems_of_list listed, Task.shaped_ok] at silent ⊢
    constructor
    · exact fun task held => silent task (List.mem_flatMap.mpr ⟨_, among, held⟩)
    · exact fun covers => covers.mono fun task held => List.mem_flatMap.mpr ⟨_, among, held⟩
  have nodes {items : List Value} {index : Nat} {item : Value}
      (listed : node.field "params" = .list items) (place : items[index]? = some item) :
      ∃ param, item = .node param := by
    have read : (node.field "params").items = .ok items := by
      rw [listed]
      rfl
    obtain ⟨param, same, -⟩ := params.node_of_item (.inl rfl) read (List.mem_of_getElem? place)
    exact ⟨param, same⟩
  have held := rooted name emitted
  rcases List.mem_cons.mp emitted with rfl | last
  · obtain ⟨items, listed⟩ : ∃ items, node.field "params" = .list items := by
      rcases params.1 with nothing | ⟨items, listed, -⟩
      · exact absurd (held.trans nothing) heads.ne_null
      · exact ⟨items, listed⟩
    obtain ⟨index, item, place, down, -, further⟩ := heads.item (held.trans listed)
    obtain ⟨param, rfl⟩ := nodes listed place
    obtain ⟨silent, covers⟩ := single listed place
    exact covers (parameter_covers silent down further)
  · cases List.mem_singleton.mp last
    obtain ⟨entries, listed⟩ : ∃ entries, node.field "defaults" = .list entries := by
      rcases defaults.1 with nothing | ⟨entries, listed, -⟩
      · exact absurd (held.trans nothing) heads.ne_null
      · exact ⟨entries, listed⟩
    obtain ⟨index, default, place, -, something, further⟩ := heads.item (held.trans listed)
    -- the entry is used, so there is a parameter for it
    have used := (Bool.and_eq_true_iff.mp (Value.isEmitted_of_suffix further.below further.emitted)).2
    simp only [Origin.down, Value.isUsedItem] at used
    split at used
    · next param found =>
        have down : (node.field "params").down (.item index) = .node param := by
          rw [← rooted "params" (by decide)]
          exact found
        obtain ⟨items, listedParams, there⟩ : ∃ items, node.field "params" = .list items ∧
            items[index]? = some (.node param) := by
          rcases params.1 with nothing | ⟨items, listed, -⟩
          · rw [nothing] at down
            cases down
          · rw [listed] at down
            change items.getD index .null = _ at down
            rw [List.getD_eq_getElem?_getD] at down
            cases same : items[index]? with
            | none =>
                rw [same] at down
                cases down
            | some item =>
                rw [same] at down
                cases down
                exact ⟨items, listed, same⟩
        obtain ⟨-, covers⟩ := single listedParams there
        exact covers (default_covers listed place something (bne_iff_ne.mp used) further)
    · cases used

/-- The first clause of a loop covers the ways through it, also through the declarators
of a declaration there. -/
theorem loopStart_covers (silent : Silent (Part.loopStart.tasks options node position))
    (held : root.descendant (node.origin.down (.member "init")).steps = node.field "init")
    (heads : root.Heads (node.origin.down (.member "init")).steps target) :
    Covers (Part.loopStart.tasks options node position) node.origin target := by
  simp only [Part.tasks] at silent ⊢
  cases found : node.field? "init" with
  | none => exact absurd (held.trans (Node.field?_eq_none_iff.mp found)) heads.ne_null
  | some value =>
      obtain ⟨start, same, silent⟩ := Silent.shaped_iff.mp (Silent.optional_iff.mp silent _ found)
      rw [Task.optional_of_found found, Task.loopInit, same, Task.shaped_ok]
      split
      · next kind =>
          rw [if_pos kind] at silent
          obtain ⟨list, foundList, silent⟩ := Silent.needed_iff.mp silent
          obtain ⟨items, listed, -⟩ := Silent.shaped_iff.mp silent
          rw [Task.needed_of_found foundList, listed, Task.shaped_ok]
          rw [Node.field_of_field? found, Value.asNode_eq_ok same] at held
          have known : Construct.ofKind? start.kind = some .variableDeclaration := by
            rw [kind]
            rfl
          have declaration : start.kind ≠ "FunctionDeclaration" := by
            rw [kind]
            decide
          have expression : start.kind ≠ "FunctionExpression" := by
            rw [kind]
            decide
          obtain ⟨inner, emits, further, down⟩ := heads.member_of_not_function held
            (root.isMethodPlace_of_ne (by decide) _) declaration expression
          cases List.mem_singleton.mp (Node.emits_construct known emits)
          rw [Node.field_of_field? foundList] at down
          have inside : root.Heads
              ((node.origin.down (.member "init")).down (.member "declarations")).steps target := further
          exact .listedTexts inside down listed fun index => List.mem_singleton_self _
      · exact .text heads

/-- The tasks of a part that is read without an obstacle cover every way through one of
its fields. An export with a declaration has no specifiers. -/
theorem covers (table : options.substitutes = .builtIn) {part : Part}
    (readable : part.IsReadable node) (silent : Silent (part.tasks options node position))
    (rooted : ∀ name ∈ part.emittedFields,
      root.descendant (node.origin.down (.member name)).steps = node.field name) {name : String}
    (emitted : name ∈ part.emittedFields)
    (chosen : part = .exported → name = "specifiers" → node.has "declaration" = false)
    (heads : root.Heads (node.origin.down (.member name)).steps target) :
    Covers (part.tasks options node position) node.origin target := by
  have held := rooted name emitted
  have found : ∃ value, node.field? name = some value := by
    cases found : node.field? name with
    | none => exact absurd (held.trans (Node.field?_eq_none_iff.mp found)) heads.ne_null
    | some value => exact ⟨value, rfl⟩
  obtain ⟨value, found⟩ := found
  have same := Node.field_of_field? found
  have listed {items : List Value} (read : value.items = .ok items) {source : Nat → Source}
      (regions : ∀ index, (node.origin.down (.member name)).down (.item index) ∈
        (source index).regions node.origin) (place : Nat → Position) (skips : Bool) :
      Covers (Task.items source place skips items) node.origin target :=
    Covers.listed heads (held.trans same) read regions
  cases part with
  | child field =>
      cases List.mem_singleton.mp emitted
      simp only [Part.tasks, Task.needed_of_found found]
      exact .child heads
  | text field =>
      cases List.mem_singleton.mp emitted
      simp only [Part.tasks, Task.needed_of_found found]
      exact .text heads
  | side field =>
      cases List.mem_singleton.mp emitted
      simp only [Part.tasks, Task.needed_of_found found]
      exact .child heads
  | optionalChild field =>
      cases List.mem_singleton.mp emitted
      simp only [Part.tasks, Task.optional_of_found found]
      exact .child heads
  | optionalText field =>
      cases List.mem_singleton.mp emitted
      simp only [Part.tasks, Task.optional_of_found found]
      exact .text heads
  | children field =>
      cases List.mem_singleton.mp emitted
      simp only [Part.tasks, Task.needed_of_found found] at silent ⊢
      obtain ⟨-, silent⟩ := Silent.wanting_iff.mp silent
      obtain ⟨items, read, -⟩ := Silent.shaped_iff.mp silent
      rw [read, Task.shaped_ok]
      exact (listed read (fun _ => List.mem_singleton_self _) _ _).wanting
  | optionalChildren field =>
      cases List.mem_singleton.mp emitted
      exact (Covers.optionalItems heads held (Silent.wanting_iff.mp silent).2).wanting
  | clauses field =>
      cases List.mem_singleton.mp emitted
      simp only [Part.tasks] at silent ⊢
      obtain ⟨items, read, -⟩ := Silent.shaped_iff.mp silent
      rw [read, Task.shaped_ok]
      exact .listedTexts heads held (Covers.items_of_optionalItems heads held read)
        fun index => List.mem_singleton_self _
  | elements field =>
      cases List.mem_singleton.mp emitted
      exact (Covers.optionalItems heads held (Silent.wanting_iff.mp silent).2).wanting
  | statements field =>
      cases List.mem_singleton.mp emitted
      simp only [Part.tasks, Task.needed_of_found found] at silent ⊢
      exact .sequence heads held same.symm silent
  | optionalStatements field =>
      cases List.mem_singleton.mp emitted
      have set : node.flag name = true := by
        unfold Node.flag
        rw [same]
        rcases heads.node_or_list with ⟨inner, there⟩ | ⟨items, there⟩
        · rw [held, same] at there
          rw [there]
          rfl
        · obtain ⟨index, item, place, -⟩ := heads.item there
          rw [held, same] at there
          rw [there]
          cases items with
          | nil => cases place
          | cons first rest => rfl
      simp only [Part.tasks, set, if_true] at silent ⊢
      exact .sequence heads held rfl silent
  | call => exact call_covers table silent emitted held heads
  | access => exact access_covers table silent emitted held heads
  | parameters => exact parameters_covers readable silent rooted emitted heads
  | superclass =>
      cases List.mem_singleton.mp emitted
      simp only [Part.tasks, Task.optional_of_found found] at silent ⊢
      obtain ⟨parent, node?, -⟩ := Silent.shaped_iff.mp silent
      rw [node?, Task.shaped_ok]
      split
      · next kind =>
          exfalso
          rw [same, Value.asNode_eq_ok node?] at held
          have known : Construct.ofKind? parent.kind = some .identifier := by
            rw [kind]
            rfl
          obtain ⟨inner, emits, -⟩ := heads.member_of_not_function held
            (root.isMethodPlace_of_ne (by decide) _) (kind ▸ by decide) (kind ▸ by decide)
          cases Node.emits_construct known emits
      · exact .child heads
  | method =>
      cases List.mem_singleton.mp emitted
      simp only [Part.tasks] at silent ⊢
      obtain ⟨key, foundKey, silent⟩ := Silent.needed_iff.mp silent
      rw [Task.needed_of_found found] at silent
      obtain ⟨supported, silent⟩ := Silent.unlessUnsupported_iff.mp silent
      obtain ⟨function, read, -⟩ := Silent.shaped_iff.mp silent
      rw [Task.needed_of_found foundKey, Task.needed_of_found found, Task.unlessUnsupported,
        supported, read]
      exact .of_visit (List.mem_singleton_self _) (List.mem_singleton_self _) heads.below
  | entryValue =>
      cases List.mem_singleton.mp emitted
      simp only [Part.tasks] at silent ⊢
      obtain ⟨key, foundKey, silent⟩ := Silent.needed_iff.mp silent
      rw [Task.needed_of_found found] at silent
      obtain ⟨supported, silent⟩ := Silent.unlessUnsupported_iff.mp silent
      obtain ⟨bearer, read, silent⟩ := Silent.shaped_iff.mp silent
      obtain ⟨name, spelled, -⟩ := Silent.shaped_iff.mp silent
      rw [Task.needed_of_found foundKey, Task.needed_of_found found, Task.unlessUnsupported,
        supported, read]
      simp only [Task.shaped_ok, spelled]
      exact .child heads
  | alternate =>
      cases List.mem_singleton.mp emitted
      simp only [Part.tasks, Task.optional_of_found found] at silent ⊢
      obtain ⟨branch, read, -⟩ := Silent.shaped_iff.mp silent
      rw [read]
      exact .text heads
  | loopStart =>
      cases List.mem_singleton.mp emitted
      exact loopStart_covers silent held heads
  | moduleBody =>
      cases List.mem_singleton.mp emitted
      simp only [Part.tasks, Task.needed_of_found found] at silent ⊢
      cases value with
      | list items => exact .sequence heads held same.symm silent
      | _ => exact .child heads
  | exported =>
      simp only [Part.tasks] at silent ⊢
      rcases List.mem_cons.mp emitted with rfl | last
      · rw [found]
        exact (Covers.child heads).left.wanting
      · cases List.mem_singleton.mp last
        have absent : node.field? "declaration" = none := by
          have lacks := chosen rfl rfl
          unfold Node.has at lacks
          cases declared : node.field? "declaration" with
          | none => rfl
          | some other =>
              rw [declared] at lacks
              cases lacks
        rw [absent] at silent ⊢
        simp only [Task.needed_of_found found] at silent ⊢
        exact .sequence heads held same.symm silent
  | present field => cases emitted
  | mark field => cases emitted
  | spelling => cases emitted
  | name => cases emitted
  | construction => cases emitted
  | declaration => cases emitted
  | parameterTexts => cases emitted
  | entry => cases emitted
  | importedModule => cases emitted
  | importedBinding => cases emitted

end Part

end

end PhpRendering
