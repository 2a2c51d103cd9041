import PhpRendering.Proofs.Counterpart
import PhpRendering.Proofs.Enclosing
import PhpRendering.Proofs.RecordLikeness

/-!
# Replacement in trees

A statement is replaced by another one at the end of a way through the tree. What its
ancestors look like to each other, to their rules and to a recorder stays the same, and
nothing changes beside the way.
-/

namespace PhpRendering

/-! ## Ways through trees -/

/-- A value with something else at the end of some steps, the first step first. Where the
steps lead nowhere nothing changes. -/
def Value.put (new : Value) : List Step → Value → Value
  | [], _ => new
  | .member name :: rest, .node found =>
      .node (found.replace "" [(name, Value.put new rest (found.field name))])
  | .item index :: rest, .list items =>
      .list (items.set index (Value.put new rest (items.getD index .null)))
  | _, value => value

def Value.at (value : Value) (route : List Step) : Value :=
  route.foldl Value.down value

/-- A node with something else at the end of some steps into one of its fields. -/
abbrev Node.put (new : Value) (name : String) (rest : List Step) (node : Node) : Node :=
  node.replace "" [(name, Value.put new rest (node.field name))]

theorem Node.put_field (new : Value) (name : String) (rest : List Step) (node : Node)
    (field : String) :
    (node.put new name rest).field field =
      if field = name then Value.put new rest (node.field name) else node.field field := by
  split
  · next same =>
      subst same
      exact congrArg (·.getD Value.null) (Node.lookup_setField_self field _ node.fields)
  · next different =>
      exact congrArg (·.getD Value.null) (Node.lookup_setField_of_ne different _ node.fields)

section Steps

variable (new : Value) {step other : Step} {rest route path : List Step} (value : Value)

/-- One step along the way. -/
theorem Value.down_put (more : rest ≠ []) :
    (Value.put new (step :: rest) value).down step = Value.put new rest (value.down step) := by
  have nothing : Value.put new rest .null = .null := by
    cases rest with
    | nil => exact absurd rfl more
    | cons next later => cases next <;> rfl
  cases step with
  | member name =>
      cases value with
      | node node => exact (node.put_field new name rest name).trans (if_pos rfl)
      | _ => exact nothing.symm
  | item index =>
      cases value with
      | list items =>
          change (items.set index (Value.put new rest (items.getD index .null))).getD index .null =
            Value.put new rest (items.getD index .null)
          by_cases inside : index < items.length
          · simp [List.getD_eq_getElem?_getD, inside]
          · have beyond : items.length ≤ index := Nat.le_of_not_lt inside
            have absent : items[index]? = none := List.getElem?_eq_none beyond
            rw [List.set_eq_of_length_le beyond, List.getD_eq_getElem?_getD, absent]
            exact nothing.symm
      | _ => exact nothing.symm

/-- One step beside the way. -/
theorem Value.down_put_of_ne (beside : other ≠ step) :
    (Value.put new (step :: rest) value).down other = value.down other := by
  cases step with
  | member name =>
      cases value with
      | node node =>
          cases other with
          | member field =>
              refine (node.put_field new name rest field).trans (if_neg ?_)
              rintro rfl
              exact beside rfl
          | item index => rfl
      | _ => rfl
  | item index =>
      cases value with
      | list items =>
          cases other with
          | member field => rfl
          | item place =>
              have different : index ≠ place := by
                rintro rfl
                exact beside rfl
              change (items.set index _).getD place .null = items.getD place .null
              simp [List.getD_eq_getElem?_getD, different]
      | _ => rfl

/-- What stands beside the way is not changed. -/
theorem Value.at_put_of_apart (before : ¬ route <+: path) (after : ¬ path <+: route) :
    (Value.put new path value).at route = value.at route := by
  induction route generalizing value path with
  | nil => exact absurd (List.nil_prefix) before
  | cons first later ih =>
      cases path with
      | nil => exact absurd (List.nil_prefix) after
      | cons step rest =>
          change (Value.at ((Value.put new (step :: rest) value).down first) later) =
            Value.at (value.down first) later
          by_cases same : first = step
          · subst same
            rw [List.cons_prefix_cons, not_and] at before after
            have more : rest ≠ [] := by
              rintro rfl
              exact after rfl List.nil_prefix
            rw [Value.down_put new value more]
            exact ih (value.down first) (before rfl) (after rfl)
          · rw [Value.down_put_of_ne new value same]

/-- What stands on the way has the end of the way replaced. -/
theorem Value.at_put_append (more : rest ≠ []) :
    (Value.put new (route ++ rest) value).at route = Value.put new rest (value.at route) := by
  induction route generalizing value with
  | nil => rfl
  | cons first later ih =>
      have deeper : later ++ rest ≠ [] := by simp [more]
      change Value.at ((Value.put new (first :: (later ++ rest)) value).down first) later = _
      rw [Value.down_put new value deeper]
      exact ih (value.down first)

end Steps

/-! ## Nodes around a statement -/

def statementFields : List String :=
  ["body", "consequent"]

/-- Whether some steps end at an item of a list of statements, and lead through no name. -/
inductive LeadsToStatement : List Step → Prop where
  | statement {field : String} (listed : field ∈ statementFields) (index : Nat) :
      LeadsToStatement [.member field, .item index]
  | member {name : String} {rest : List Step} (other : name ≠ "name")
      (deeper : LeadsToStatement rest) : LeadsToStatement (.member name :: rest)
  | item {index : Nat} {rest : List Step} (deeper : LeadsToStatement rest) :
      LeadsToStatement (.item index :: rest)

/-- A node, and the node with something else in the place of a statement below it. -/
inductive Node.Filled (new : Value) : Node → Node → Prop where
  | same (node : Node) : Filled new node node
  | put {name : String} {rest : List Step} (leads : LeadsToStatement (.member name :: rest))
      (node : Node) : Filled new node (node.put new name rest)

mutual

/-- A value corresponds to itself when all nodes do. -/
theorem Value.alike_self {N : Node → Node → Prop} (same : ∀ node, N node node) (value : Value) :
    value.Alike N value := by
  cases value with
  | scalar scalar => exact .scalar scalar
  | record members => exact .record members
  | foreign origin => exact .foreign origin origin
  | node node => exact .node (same node)
  | list items => exact Value.Alike.list_iff.mpr (Value.alikeItems_self same items)

theorem Value.alikeItems_self {N : Node → Node → Prop} (same : ∀ node, N node node)
    (items : List Value) : List.Forall₂ (Value.Alike N) items items := by
  cases items with
  | nil => exact .nil
  | cons first rest =>
      exact .cons (Value.alike_self same first) (Value.alikeItems_self same rest)

end

/-- A list corresponds to the list with a corresponding item at one position. -/
theorem List.Forall₂.set_right {α : Type} {A : α → α → Prop} {items : List α} (index : Nat)
    (same : ∀ item ∈ items, A item item) {new : α}
    (here : ∀ item, items[index]? = some item → A item new) :
    List.Forall₂ A items (items.set index new) := by
  induction items generalizing index with
  | nil => exact .nil
  | cons first rest ih =>
      have later : ∀ item ∈ rest, A item item := fun item held =>
        same item (List.mem_cons_of_mem _ held)
      cases index with
      | zero => exact .cons (here first rfl) (List.forall₂_same.mpr later)
      | succ index => exact .cons (same first (List.mem_cons_self ..)) (ih index later here)

/-- Whatever has something else in the place of a statement below corresponds to itself. -/
theorem LeadsToStatement.alike_put {path : List Step} (leads : LeadsToStatement path) (new : Value)
    (value : Value) : value.Alike (Node.Filled new) (Value.put new path value) := by
  induction leads generalizing value with
  | statement listed index =>
      cases value with
      | node node => exact .node (.put (.statement listed index) node)
      | _ => exact Value.alike_self .same _
  | @member name rest other deeper ih =>
      cases value with
      | node node => exact .node (.put (.member other deeper) node)
      | _ => exact Value.alike_self .same _
  | @item index rest deeper ih =>
      cases value with
      | list items =>
          refine Value.Alike.list_iff.mpr (List.Forall₂.set_right index ?_ ?_)
          · exact fun item _ => Value.alike_self .same item
          · intro item held
            rw [List.getD_eq_getElem?_getD, held]
            exact ih item
      | _ => exact Value.alike_self .same _

namespace Node.Filled

variable {new : Value} {node other : Node} {name : String}

theorem kind_eq (filled : node.Filled new other) : other.kind = node.kind := by
  cases filled <;> rfl

theorem line_eq (filled : node.Filled new other) : other.line = node.line := by
  cases filled <;> rfl

theorem origin_eq (filled : node.Filled new other) : other.origin = node.origin := by
  cases filled <;> rfl

/-- Fields that hold no lists of statements correspond. -/
theorem field_alike (filled : node.Filled new other) (plain : name ∉ statementFields) :
    (node.field name).Alike (Filled new) (other.field name) := by
  cases filled with
  | same => exact Value.alike_self .same _
  | @put step rest leads =>
      rw [node.put_field]
      split
      · next same =>
          subst same
          cases leads with
          | statement listed index => exact absurd listed plain
          | member _ deeper => exact deeper.alike_put new _
      · exact Value.alike_self .same _

/-- What leads to a statement leads past the name of a node. -/
theorem name_field (filled : node.Filled new other) : other.field "name" = node.field "name" := by
  cases filled with
  | same => rfl
  | @put step rest leads =>
      rw [node.put_field, if_neg]
      rintro rfl
      cases leads with
      | statement listed index => exact absurd listed (by decide)
      | member different _ => exact different rfl

/-- Corresponding parameters bind the same name. -/
theorem boundName_eq (filled : node.Filled new other) : other.boundName = node.boundName := by
  induction height : node.height using Nat.strongRecOn generalizing node other with
  | ind bound ih =>
      subst height
      have left := filled.field_alike (by decide : "left" ∉ statementFields)
      have lower := node.height_field_lt "left"
      rw [node.boundName_eq, other.boundName_eq, filled.kind_eq, filled.name_field]
      generalize node.field "left" = held at left lower
      generalize other.field "left" = heldToo at left
      cases left with
      | node deeper => simp only [ih _ lower deeper rfl]
      | _ => rfl

theorem functionName?_eq (filled : node.Filled new other) :
    other.functionName? = node.functionName? := by
  have id := filled.field_alike (by decide : "id" ∉ statementFields)
  unfold Node.functionName?
  generalize node.field "id" = held at id
  generalize other.field "id" = heldToo at id
  cases id with
  | node deeper => simp only [deeper.name_field]
  | _ => rfl

/-- A recorder is told the same. -/
theorem notice_eq (filled : node.Filled new other) : other.notice = node.notice := by
  have params : (node.optionalItems "params").map boundSymbols =
      (other.optionalItems "params").map boundSymbols := by
    have alike := Node.optionalItems_alike (filled.field_alike (by decide : "params" ∉ _))
    generalize node.optionalItems "params" = held at alike
    generalize other.optionalItems "params" = heldToo at alike
    cases alike with
    | error crash => rfl
    | ok all =>
        refine congrArg Except.ok ?_
        induction all with
        | nil => rfl
        | cons first _ ih =>
            have bound := ih
            unfold boundSymbols at bound ⊢
            rw [List.map_cons, List.map_cons, bound]
            cases first with
            | node deeper =>
                simp only [Value.boundSymbol?, Value.asNode, Except.bind, deeper.boundName_eq]
            | _ => rfl
  unfold Node.notice
  rw [filled.functionName?_eq, params]

end Node.Filled

/-- Nodes look the same with something else in the place of a statement below. -/
theorem Node.resembles_filled (new : Value) : Resembles (Node.Filled new) where
  kind filled := .inl filled.kind_eq.symm
  line filled := filled.line_eq.symm
  fields filled name listed := by
    refine filled.field_alike ?_
    revert listed name
    decide
  name {node other} filled := by
    have valued := filled.field_alike (by decide : "value" ∉ statementFields)
    unfold Node.name
    rw [filled.name_field]
    dsimp only
    split
    · rw [valued.text?_eq]
    · rfl
  identifier filled _ := filled.field_alike (by decide)
  shown filled name listed := by
    have plain : name ∉ statementFields := by
      revert listed name
      decide
    exact (filled.field_alike plain).shown_eq fun _ _ deeper => deeper.kind_eq.symm
  value filled _ :=
    (filled.field_alike (by decide)).shown_eq fun _ _ deeper => deeper.kind_eq.symm
  callee filled held heldToo := by
    have callee := filled.field_alike (by decide : "callee" ∉ statementFields)
    rw [held, heldToo] at callee
    cases callee with
    | node deeper => exact deeper.kind_eq.symm
  called filled := filled.field_alike (by decide)
  formed filled construct _ name listed := by
    refine filled.field_alike ?_
    revert listed name
    cases construct <;> decide
  places filled inner := by rw [filled.origin_eq, inner.origin_eq]

end PhpRendering
