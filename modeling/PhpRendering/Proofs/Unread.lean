import PhpRendering.Proofs.Isolation

/-!
# Fields that no rule reads

A parser says more about a node than the rules ask for. What stands in a field that no
rule reads makes no difference to the rendering of a tree, wherever the node stands. The
prefix flag of an increment is such a field: an increment before its operand and one
behind it have the same text.
-/

namespace PhpRendering

/-! ## Fields that are changed somewhere -/

inductive LeadsToField (last : String) : List Step → Prop where
  | here : LeadsToField last [.member last]
  | member {name : String} {rest : List Step} (deeper : LeadsToField last rest) :
      LeadsToField last (.member name :: rest)
  | item {index : Nat} {rest : List Step} (deeper : LeadsToField last rest) :
      LeadsToField last (.item index :: rest)

/-- A node, and the node with something else in a field of the given name, its own or that
of a node below it. -/
inductive Node.Altered (last : String) (new : Value) : Node → Node → Prop where
  | same (node : Node) : Altered last new node node
  | put {name : String} {rest : List Step} (leads : LeadsToField last (.member name :: rest))
      (node : Node) : Altered last new node (node.put new name rest)

/-- A change at the end of some steps is made by changing what stands on the way. -/
theorem Value.put_append (new : Value) (path rest : List Step) (value : Value) :
    Value.put new (path ++ rest) value = Value.put (Value.put new rest (value.at path)) path value := by
  induction path generalizing value with
  | nil => rfl
  | cons step later ih =>
      cases step with
      | member name =>
          cases value with
          | node node => exact congrArg (fun held => Value.node (node.replace "" [(name, held)])) (ih _)
          | _ => rfl
      | item index =>
          cases value with
          | list items => exact congrArg (fun held => Value.list (items.set index held)) (ih _)
          | _ => rfl

theorem LeadsToField.append (last : String) (path : List Step) :
    LeadsToField last (path ++ [.member last]) := by
  induction path with
  | nil => exact .here
  | cons step rest ih =>
      cases step with
      | member name => exact .member ih
      | item index => exact .item ih

/-- A value corresponds to the value with a field changed in it. -/
theorem LeadsToField.alike_put {last : String} {path : List Step} (leads : LeadsToField last path)
    (new value : Value) : value.Alike (Node.Altered last new) (Value.put new path value) := by
  induction leads generalizing value with
  | here =>
      cases value with
      | node node => exact .node (.put .here node)
      | _ => exact Value.alike_self .same _
  | @member name rest deeper ih =>
      cases value with
      | node node => exact .node (.put (.member deeper) node)
      | _ => exact Value.alike_self .same _
  | @item index rest deeper ih =>
      cases value with
      | list items =>
          refine Value.Alike.list_iff.mpr (List.Forall₂.set_right index ?_ ?_)
          · exact fun item _ => Value.alike_self .same item
          · intro item held
            rw [List.getD_eq_getElem?_getD, held]
            exact ih item
      | _ => exact Value.alike_self .same _

namespace Node.Altered

variable {last : String} {new : Value} {node other : Node}

theorem kind_eq (altered : node.Altered last new other) : node.kind = other.kind := by
  cases altered <;> rfl

theorem line_eq (altered : node.Altered last new other) : node.line = other.line := by
  cases altered <;> rfl

theorem origin_eq (altered : node.Altered last new other) : node.origin = other.origin := by
  cases altered <;> rfl

/-- The fields of other names correspond. -/
theorem field_alike (altered : node.Altered last new other) {name : String} (beside : name ≠ last) :
    (node.field name).Alike (Altered last new) (other.field name) := by
  cases altered with
  | same => exact Value.alike_self .same _
  | @put step rest leads =>
      rw [node.put_field]
      split
      · next same =>
          subst same
          cases leads with
          | here => exact absurd rfl beside
          | member deeper => exact deeper.alike_put new _
      · exact Value.alike_self .same _

end Node.Altered

/-! ## Fields that are read -/

/-- The fields that are read by rules: of the nodes that they render, of the functions whose
parameters they render, and of the nodes that they look at. -/
def readNames : List String :=
  Construct.byKind.flatMap (fun entry => entry.2.readFields) ++ facadeFields ++ shownFields ++
    ["name", "id", "callee", "params", "defaults"]

section Unread

variable {last : String} (unread : last ∉ readNames) {new : Value} {node other : Node}
include unread

theorem ne_of_read {name : String} (read : name ∈ readNames) : name ≠ last := by
  rintro rfl
  exact unread read

/-- Nodes look the same whatever stands in a field that is not read. -/
theorem resembles_altered : Resembles (Node.Altered last new) where
  kind altered := .inl altered.kind_eq
  line altered := altered.line_eq
  fields altered name listed :=
    altered.field_alike (ne_of_read unread (by
      revert listed name
      decide))
  name altered := by
    have named := altered.field_alike (ne_of_read unread (by decide : "name" ∈ readNames))
    have valued := altered.field_alike (ne_of_read unread (by decide : "value" ∈ readNames))
    unfold Node.name
    simp only [named.isNull_eq]
    split
    · rw [valued.text?_eq]
    · rw [named.text?_eq]
  identifier altered _ := altered.field_alike (ne_of_read unread (by decide))
  shown altered name listed :=
    (altered.field_alike (ne_of_read unread (by
      revert listed name
      decide))).shown_eq fun _ _ deeper => deeper.kind_eq
  value altered _ :=
    (altered.field_alike (ne_of_read unread (by decide))).shown_eq fun _ _ deeper => deeper.kind_eq
  callee altered held heldToo := by
    have callee := altered.field_alike (ne_of_read unread (by decide : "callee" ∈ readNames))
    rw [held, heldToo] at callee
    cases callee with
    | node deeper => exact deeper.kind_eq
  called altered := altered.field_alike (ne_of_read unread (by decide))
  formed altered construct _ name listed :=
    altered.field_alike (ne_of_read unread (by
      revert listed name
      cases construct <;> decide))
  places altered inner := by rw [altered.origin_eq, inner.origin_eq]

theorem Node.Twin.readFields_altered (twin : Node.Twin (Node.Altered last new) node other)
    {construct : Construct} (known : Construct.ofKind? node.kind = some construct) :
    ∀ name ∈ construct.readFields,
      (node.field name).Alike (Node.Twin (Node.Altered last new)) (other.field name) := by
  intro name read
  have beside : name ≠ last := by
    refine ne_of_read unread ?_
    unfold readNames
    simp only [List.mem_append]
    exact .inl (.inl (.inl (List.mem_flatMap.mpr ⟨_, Construct.mem_byKind known, read⟩)))
  by_cases isId : name = "id"
  · subst isId
    exact twin.id fun altered => altered.field_alike beside
  · exact (twin.field isId fun altered => altered.field_alike beside).mono fun _ _ => .base

omit unread in
theorem Node.Twin.kind_altered (twin : Node.Twin (Node.Altered last new) node other) :
    node.kind = other.kind := by
  cases twin with
  | base altered => exact altered.kind_eq
  | _ => rfl

/-- A tree is rendered in the same way whatever stands in a field that no rule reads: it has
the same text or the same failure, and the same happens. -/
theorem Node.Altered.render_like (options : Options) (altered : node.Altered last new other)
    (position : Position) :
    (render options (.node node) position).Like (Node.Twin (Node.Altered last new))
      (render options (.node other) position) := by
  have like : Resembles (Node.Altered last new) := resembles_altered unread
  have params := ne_of_read unread (by decide : "params" ∈ readNames)
  have defaults := ne_of_read unread (by decide : "defaults" ∈ readNames)
  have start : Task.Paired (Node.Altered last new) (.visit .copy (.node node) position)
      (.visit .copy (.node other) position) := .visit .copy position (.node (.base altered))
  refine PhpRendering.render_like options ?_ ?_ ?_ start
  · intro _ node position _ counterpart _ related
    cases related with
    | visit _ _ alike =>
        cases alike with
        | node twin =>
            have fields (construct : Construct)
                (known : Construct.ofKind? node.kind = some construct) :=
              twin.readFields_altered unread known
            have asks := twin.asksAlike like options position fields
            refine twin.layout_paired (fun _ _ paired => paired) like twin.kind_altered
              options position asks fields fun _ => ?_
            refine Layout.Like.parameters_paired (fun _ _ paired => paired) like twin
              twin.kind_altered ?_ ?_
            · exact twin.field (by decide) fun altered => altered.field_alike params
            · exact twin.field (by decide) fun altered => altered.field_alike defaults
  · intro _ _ _ _ _ _ related
    cases related with
    | visit _ _ alike => exact alike.isSome_node?_eq
  · intro _ _ related
    cases related with
    | enter twin _ => exact twin

end Unread

/-! ## The prefix flag of updates -/

section Updates

variable {options : Options} {update argument : Node} {operator : String}
  (kind : update.kind = "UpdateExpression")
  (held : update.field "argument" = .node argument)
  (written : update.field "operator" = .text operator)
include kind held written

/-- An update is its operand with the operator behind it. -/
theorem render_update (yields : argument.form = .text) (position : Position) {text : String}
    (operand : (render options (.node argument) (.within update)).outcome = .ok text) :
    (render options (.node update) position).outcome = .ok (text ++ operator) := by
  have known : Construct.ofKind? update.kind = some .update := by
    rw [kind]
    rfl
  have sign : update.field? "operator" = some (.text operator) :=
    Node.field?_eq_some_iff.mpr ⟨written, rfl⟩
  have writes : (Construct.update.layout options update position).Writes (render options)
      (text ++ operator) := by
    have form : (update.field "argument").form = .text := held ▸ yields
    rw [Construct.layout, Layout.update_of_form form]
    refine .next ?_ ?_
    · exact Layout.writes_child_iff.mpr ⟨_, Node.field?_node held, operand⟩
    · exact Layout.writes_needed_iff.mpr ⟨_, sign, .word operator⟩
  exact render_of_construct_writes known writes

/-- The flag that tells whether the operator of an update stands before the operand or behind
it is not read. Whatever it is, the update is its operand with the operator behind it; and a
readable tree in which the update stands somewhere has one and the same text, with one and
the same diagnostics. -/
theorem updates_ignore_prefix {root : Node} {path : List Step}
    (there : (Value.node root).at path = .node update) (readable : root.Readable)
    {position : Position} (usable : position.IsUsable) :
    (∀ (flag : Value) (place : Position) (text : String), argument.form = .text →
      (render options (.node argument) (.within update)).outcome = .ok text →
        (render options (.node (update.replace "" [("prefix", flag)])) place).outcome =
          .ok (text ++ operator)) ∧
      ∃ (text : String) (diagnostics : List Diagnostic), ∀ flag : Value,
        let tree := Value.put (.node (update.replace "" [("prefix", flag)])) path (.node root)
        (render options tree position).outcome = .ok text ∧
          (render options tree position).diagnostics = diagnostics := by
  have unread : "prefix" ∉ readNames := by decide
  constructor
  · intro flag place text yields operand
    have beside (name : String) (different : name ≠ "prefix") :
        (update.replace "" [("prefix", flag)]).field name = update.field name :=
      (update.put_field flag "prefix" [] name).trans (if_neg different)
    have within : Position.within (update.replace "" [("prefix", flag)]) =
        Position.within update := by
      have twin : Node.Twin (Node.Altered "prefix" flag) update
          (update.replace "" [("prefix", flag)]) := .base (.put .here update)
      exact (twin.within_eq (resembles_altered unread).looksAlike rfl).symm
    have kindToo : (update.replace "" [("prefix", flag)]).kind = "UpdateExpression" := kind
    have heldToo := (beside "argument" (by decide)).trans held
    have writtenToo := (beside "operator" (by decide)).trans written
    rw [← within] at operand
    exact render_update kindToo heldToo writtenToo yields place operand
  · obtain ⟨text, outcome⟩ := (render_isSafe options readable usable).outcome
    refine ⟨text, (render options (.node root) position).diagnostics, fun flag => ?_⟩
    have changed : Value.put (.node (update.replace "" [("prefix", flag)])) path (.node root) =
        Value.put flag (path ++ [.member "prefix"]) (.node root) := by
      rw [Value.put_append, there]
      rfl
    rw [changed]
    have leads := LeadsToField.append "prefix" path
    have alike := leads.alike_put flag (.node root)
    generalize Value.put flag (path ++ [.member "prefix"]) (.node root) = tree at alike
    cases alike with
    | node altered =>
        have like := altered.render_like unread options position
        exact ⟨like.outcome.symm.trans outcome, (diagnostics_of_like like.events).symm⟩

end Updates

def updateNode (operator name : String) (flag : Bool) : Node :=
  ⟨⟨0, []⟩, "UpdateExpression",
    [("operator", .text operator),
      ("argument", .node ⟨⟨0, []⟩, "Identifier", [("name", .text name)], none⟩),
      ("prefix", .scalar (.bool flag))], none⟩

def countdown : Node :=
  ⟨⟨0, []⟩, "CallExpression",
    [("callee", .node ⟨⟨0, []⟩, "Identifier", [("name", .text "f")], none⟩),
      ("arguments", .list [.node (updateNode "--" "n" true)])], none⟩

/-- The calls `f(--n)` and `f(n--)` have one text. -/
theorem countdown_ignores_prefix :
    (Value.node countdown).at [.member "arguments", .item 0] = .node (updateNode "--" "n" true) ∧
      countdown.Readable ∧
      ∀ flag : Bool, (render {} (Value.put (.node (updateNode "--" "n" flag))
        [.member "arguments", .item 0] (.node countdown)) {}).outcome = .ok "f($n--)" := by
  have there : (Value.node countdown).at [.member "arguments", .item 0] =
      .node (updateNode "--" "n" true) := rfl
  have readable : countdown.Readable := Node.readable_of_check 4 (by decide)
  obtain ⟨-, text, diagnostics, same⟩ := updates_ignore_prefix rfl rfl rfl there readable
    (⟨rfl, fun unusable => nomatch unusable⟩ : Position.IsUsable {})
  have before : (render {} (.node countdown) {}).outcome = .ok "f($n--)" := rfl
  have text_eq := (same (.scalar (.bool true))).1.symm.trans before
  exact ⟨there, readable, fun flag => (same (.scalar (.bool flag))).1.trans text_eq⟩

def assignedIncrement (flag : Bool) : Node :=
  ⟨⟨0, []⟩, "AssignmentExpression",
    [("operator", .text "="),
      ("left", .node ⟨⟨0, []⟩, "Identifier", [("name", .text "y")], none⟩),
      ("right", .node (updateNode "++" "x" flag))], none⟩

/-- The assignments `y = ++x` and `y = x++`, whose values differ, are not told apart. -/
theorem assignedIncrements_have_one_text :
    (render {} (.node (assignedIncrement true)) {}).outcome = .ok "$y = $x++" ∧
      (render {} (.node (assignedIncrement false)) {}).outcome = .ok "$y = $x++" :=
  ⟨rfl, rfl⟩

end PhpRendering
