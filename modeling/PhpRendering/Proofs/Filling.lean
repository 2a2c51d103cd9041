import Mathlib.Data.List.Pairwise
import PhpRendering.Proofs.Routes
import PhpRendering.Proofs.Safety
import PhpRendering.Proofs.Shown

/-!
# Slots of nodes that are filled

When a statement below a node is replaced, the layout of the node changes in one slot
only: in that of the statement, or of the value that the way to the statement leads into.
-/

namespace PhpRendering

/-! ## Layouts of filled nodes -/

/-- Two tasks at the same place of two layouts: the same source at the same position, with
nodes or without, or the same entry. -/
inductive Task.Matches : Task → Task → Prop where
  | visit (source : Source) {value other : Value} (position : Position)
      (shape : value.node?.isSome = other.node?.isSome) :
      Matches (.visit source value position) (.visit source other position)
  | enter {function other : Node} (same : function.SameEntry other) :
      Matches (.enter function) (.enter other)

theorem Source.Apart.symm {first second : Source} (apart : first.Apart second) :
    second.Apart first :=
  fun origin region held other heldToo => (apart origin other heldToo region held).symm

theorem Task.Apart.symm {first second : Task} (apart : first.Apart second) :
    second.Apart first := by
  cases first with
  | visit source value place =>
      cases second with
      | visit other valueToo placeToo => exact Source.Apart.symm apart
      | _ => trivial
  | _ =>
      cases second <;> trivial

section Refilled

variable {options : Options} {node other : Node} {position place : Position} {source : Source}
  {construct : Construct}

/-- Two renderings of one node are the same, or for sources apart. -/
theorem Construct.visits_apart {first second : Source} {value valueToo : Value}
    {place placeToo : Position}
    (held : .visit first value place ∈ construct.tasks options node position)
    (heldToo : .visit second valueToo placeToo ∈ construct.tasks options node position) :
    (first = second ∧ value = valueToo ∧ place = placeToo) ∨ first.Apart second := by
  by_cases same : (.visit first value place : Task) = .visit second valueToo placeToo
  · cases same
    exact .inl ⟨rfl, rfl, rfl⟩
  · have symm : Std.Symm Task.Apart := ⟨fun _ _ => Task.Apart.symm⟩
    exact .inr ((Construct.pairwise_tasks options node position construct).forall held heldToo same)

/-- A copy of a node stands apart from nothing else. -/
theorem Source.Apart.ne_copy {first second : Source} (apart : first.Apart second) :
    first ≠ .copy := by
  rintro rfl
  have some : ∃ route, route ∈ second.routes := by
    cases second <;> exact ⟨_, List.mem_cons_self ..⟩
  obtain ⟨route, listed⟩ := some
  exact (apart.waysPart (List.mem_singleton_self _) listed).1 List.nil_prefix

/-- A method has nothing rendered but its function. -/
theorem Construct.visit_beside_method {value : Value} {child : Node} {placeToo : Position}
    (held : .visit .method value place ∈ construct.tasks options node position)
    (heldToo : .visit source (.node child) placeToo ∈ construct.tasks options node position) :
    source = .method := by
  obtain ⟨part, listed, among⟩ := List.mem_flatMap.mp held
  cases part.tasks_provided options node position _ among with
  | method read _ _ =>
      obtain rfl := Construct.eq_methodDefinition listed read
      obtain ⟨other, only, amongToo⟩ := List.mem_flatMap.mp heldToo
      cases List.mem_singleton.mp only
      exact (Part.visit_of_method _ amongToo rfl).1

/-- When only the value of one source is another one, the layout changes in its slot only. -/
theorem Construct.refilled_of_matches (known : Construct.ofKind? node.kind = some construct)
    (kind : other.kind = node.kind)
    (nodes : ∀ source value place,
      .visit source value place ∈ construct.tasks options node position →
        ∃ child, value = .node child)
    (defaults : construct = .functionDeclaration → (node.field "defaults").text? = none ∧
      (other.field "defaults").text? = none)
    (matching : (construct.layout options node position).Like Task.Matches
      (construct.layout options other position)) {old : Value}
    (held : .visit source old place ∈ construct.tasks options node position)
    (beside : ∀ slot : Source, slot.Apart source → slot ≠ .copy → slot ≠ .method →
      slot.valueAt options other = slot.valueAt options node) :
    (construct.layout options node position).Like
      (Task.Refilled source old (source.valueAt options other) place)
      (construct.layout options other position) := by
  have knownToo : Construct.ofKind? other.kind = some construct := kind ▸ known
  refine matching.strengthen fun task among task' amongToo matched => ?_
  rw [construct.layout_tasks] at among amongToo
  cases matched with
  | enter same => exact .enter same
  | @visit slot value valueToo spot shape =>
      obtain ⟨child, rfl⟩ := nodes _ _ _ among
      obtain ⟨childToo, rfl⟩ := Value.eq_node_of_isSome shape.symm
      have value := Construct.valueAt_eq known (fun function => (defaults function).1) among
      have valueToo :=
        Construct.valueAt_eq knownToo (fun function => (defaults function).2) amongToo
      rcases Construct.visits_apart among held with ⟨rfl, rfl, rfl⟩ | apart
      · rw [valueToo]
        exact .slot
      · have plain : slot ≠ .method := by
          rintro rfl
          obtain ⟨inner, rfl⟩ := nodes _ _ _ held
          obtain rfl := Construct.visit_beside_method among held
          exact Source.not_apart_self _ apart
        have same := beside slot apart apart.ne_copy plain
        rw [← value, ← valueToo, same]
        exact .visit (fun equal => Source.not_apart_self _ (equal ▸ apart)) _ _

end Refilled

/-! ## Ancestors of a statement -/

/-- The entry of a function is the same with something else in the place of a statement. -/
theorem Node.Filled.sameEntry {new : Value} {node other : Node} (filled : node.Filled new other) :
    node.SameEntry other := by
  have origin : other.origin = node.origin := by cases filled <;> rfl
  unfold SameEntry entry
  rw [origin, filled.kind_eq, filled.line_eq, filled.notice_eq]

/-- A construct enters its own node only. -/
theorem Construct.enter_eq {options : Options} {node function : Node} {position : Position}
    {construct : Construct} (held : .enter function ∈ construct.tasks options node position) :
    function = node := by
  obtain ⟨part, -, among⟩ := List.mem_flatMap.mp held
  exact (part.tasks_provided options node position _ among).2

section Ancestors

variable {options : Options} {node other : Node} {position place : Position} {source : Source}
  {construct : Construct}

/-- The layouts of a node and of the filled node match when what the node reads is filled
below it. -/
theorem Node.Filled.matches {new : Value} (filled : node.Filled new other)
    (known : Construct.ofKind? node.kind = some construct)
    (alike : ∀ name ∈ construct.readFields,
      (node.field name).Alike (Node.Filled new) (other.field name)) :
    (construct.layout options node position).Like Task.Matches
      (construct.layout options other position) := by
  have like := Node.resembles_filled new
  have twin : Node.Twin (Node.Filled new) node other := .base filled
  have paired (task counterpart : Task) (same : task.Paired (Node.Filled new) counterpart) :
      task.Paired (Node.Filled new) counterpart := same
  have below (name : String) (listed : name ∈ construct.readFields) :=
    (alike name listed).mono fun _ _ => Node.Twin.base
  have asks : node.AsksAlike (Node.Filled new) options position other :=
    twin.asksAlike like options position fun construct knownToo =>
      Option.some.inj (known.symm.trans knownToo) ▸ below
  have whole := Construct.layout_like paired like twin filled.kind_eq.symm options position known
    asks below fun _ => Layout.Like.parameters_paired paired like twin filled.kind_eq.symm
      (filled.field_alike (by decide)) (filled.field_alike (by decide))
  refine whole.strengthen fun task among counterpart amongToo same => ?_
  rw [construct.layout_tasks] at among amongToo
  cases same with
  | visit source position alike => exact .visit source position alike.isSome_node?_eq
  | enter related declared =>
      rw [Construct.enter_eq among, Construct.enter_eq amongToo]
      exact .enter filled.sameEntry

/-- The name of a node is not rendered. -/
theorem Construct.name_not_mem {value : Value}
    (held : .visit source value place ∈ construct.tasks options node position) :
    "name" ∉ source.fields := by
  obtain ⟨part, listed, among⟩ := List.mem_flatMap.mp held
  have table : ∀ part ∈ construct.parts, part = .name ∨ "name" ∉ part.fields := by
    cases construct <;> decide
  intro named
  rcases table part listed with rfl | other
  · simp only [Part.tasks] at among
    split at among
    · cases List.mem_singleton.mp among
    · cases among
  · have renders : part.isCheck = false := by
      refine Bool.eq_false_iff.mpr fun check => ?_
      obtain ⟨fault, stops⟩ := Part.tasks_of_isCheck check options node position _ among
      cases stops
    exact other ((part.tasks_provided options node position _ among).fields_mem renders _ named)

end Ancestors

namespace Source.Leads

variable {source : Source} {name : String} {path more rest : List Step}

/-- What leads to a statement from a field leads there from the value of the field. -/
theorem below (leads : source.Leads (.member name :: more) rest) (statement : LeadsToStatement rest)
    (real : source ≠ .copy) : LeadsToStatement more := by
  cases leads with
  | copy plain rest => exact absurd rfl real
  | field name rest => exact statement
  | item name index rest => exact .item statement
  | receiver rest => exact .member (by decide) statement
  | declarator index rest => exact .member (by decide) (.item statement)
  | method plain rest => exact statement
  | left index rest => exact .item statement
  | right index rest => exact .item statement
  | param index rest => exact .item (statement.of_member (by decide))
  | default index rest => exact .item (statement.of_member (by decide))

theorem leadsToStatement (leads : source.Leads path rest) (statement : LeadsToStatement rest)
    (plain : "name" ∉ source.fields) : LeadsToStatement path := by
  by_cases copy : source = .copy
  · subst copy
    cases leads
    exact statement
  · obtain ⟨name, more, rfl, other⟩ : ∃ name more, path = .member name :: more ∧ name ≠ "name" := by
      cases leads with
      | copy => exact absurd rfl copy
      | field name rest =>
          exact ⟨name, _, rfl, fun same => plain (same ▸ List.mem_singleton_self _)⟩
      | item name index rest =>
          exact ⟨name, _, rfl, fun same => plain (same ▸ List.mem_singleton_self _)⟩
      | _ => exact ⟨_, _, rfl, by decide⟩
    exact .member other (leads.below statement copy)

end Source.Leads

section Ancestors

variable {options : Options} {node inner : Node} {position place : Position} {source : Source}
  {construct : Construct} {name : String} {more rest : List Step}

/-- A declaration has no text for its defaults when it is readable. -/
theorem Node.Readable.defaults_text? (readable : node.Readable)
    (known : Construct.ofKind? node.kind = some .functionDeclaration) :
    (node.field "defaults").text? = none := by
  have parts := (Node.readable_iff_parts known).mp readable .parameters (List.mem_cons_self ..)
  have listed : ⟨"defaults", .holedNodes, .rendered⟩ ∈ Part.parameters.readings := by decide
  rcases (parts _ listed).1 with nothing | ⟨items, list, -⟩
  · simp only at nothing
    rw [nothing]
    rfl
  · simp only at list
    rw [list]
    rfl

/-- A readable node has nodes rendered only. -/
theorem Node.Readable.visits_nodes (readable : node.Readable)
    (known : Construct.ofKind? node.kind = some construct) {value : Value}
    (held : .visit source value place ∈ construct.tasks options node position) :
    ∃ child, value = .node child ∧ child.Readable := by
  obtain ⟨part, listed, among⟩ := List.mem_flatMap.mp held
  exact (part.tasks_provided options node position _ among).readable
    ((Node.readable_iff_parts known).mp readable part listed)

/-- What a construct reads of a node is filled with something in the place of a statement. -/
theorem Construct.readFields_alike_put
    (held : .visit source (.node inner) place ∈ construct.tasks options node position)
    (leads : source.Leads (.member name :: more) rest) (statement : LeadsToStatement rest)
    (new : Value) : ∀ field ∈ construct.readFields,
      (node.field field).Alike (Node.Filled new) ((node.put new name more).field field) := by
  intro field listed
  rw [node.put_field]
  split
  · next same =>
      subst same
      refine (leads.below statement ?_).alike_put new _
      -- a copy is made of the name only, which no way leads through
      rintro rfl
      cases leads with
      | copy plain =>
          obtain ⟨part, parts, among⟩ := List.mem_flatMap.mp held
          cases part.tasks_provided options node position _ among with
          | call read =>
              subst read
              obtain rfl := Construct.eq_construction parts
              cases listed
          | declaration read =>
              subst read
              obtain rfl := Construct.eq_functionExpression parts
              exact plain (List.mem_singleton.mp listed)
  · exact Value.alike_self .same _

/-- When something is put in the place of a statement, the layout of an ancestor changes in
the slot that the way leads into, and nowhere else. -/
theorem Construct.layout_refilled (known : Construct.ofKind? node.kind = some construct)
    (readable : node.Readable)
    (held : .visit source (.node inner) place ∈ construct.tasks options node position)
    (leads : source.Leads (.member name :: more) rest) (statement : LeadsToStatement rest)
    (present : ∀ first later, rest = .member first :: later → inner.field first ≠ .null)
    (new : Value) :
    (construct.layout options node position).Like
        (Task.Refilled source (.node inner) (Value.put new rest (.node inner)) place)
        (construct.layout options (node.put new name more) position) ∧
      construct.owesTerminator options node position =
        construct.owesTerminator options (node.put new name more) position := by
  have filled : node.Filled new (node.put new name more) :=
    .put (leads.leadsToStatement statement (Construct.name_not_mem held)) node
  have alike := Construct.readFields_alike_put held leads statement new
  have value := Construct.valueAt_eq known
    (fun function => readable.defaults_text? (function ▸ known)) held
  have defaults (function : construct = .functionDeclaration) :
      (node.field "defaults").text? = none ∧
        ((node.put new name more).field "defaults").text? = none := by
    have plain := readable.defaults_text? (function ▸ known)
    refine ⟨plain, ?_⟩
    rw [← plain]
    exact ((filled.field_alike (by decide : "defaults" ∉ statementFields)).text?_eq).symm
  have refilled := Construct.refilled_of_matches known filled.kind_eq
    (fun _ _ _ among => (readable.visits_nodes known among).imp fun _ => And.left) defaults
    (filled.matches known alike) held fun slot apart real plain =>
      Source.valueAt_put_of_waysPart (fun _ listed => leads.waysPart apart listed) real plain
  rw [leads.valueAt_put (leads.not_mem_routes statement) value present] at refilled
  have like := Node.resembles_filled new
  have below (field : String) (listed : field ∈ construct.readFields) :=
    (alike field listed).mono fun _ _ => Node.Twin.base
  have asks : node.AsksAlike (Node.Filled new) options position (node.put new name more) :=
    (Node.Twin.base filled).asksAlike like options position
      fun construct knownToo => Option.some.inj (known.symm.trans knownToo) ▸ below
  have owes := Construct.owesTerminator_eq like options position construct
    (fun call => asks.method (known.trans (congrArg some call))) below
  exact ⟨refilled, owes⟩

end Ancestors

/-! ## Lists of statements -/

def Construct.listingStatements : List Construct :=
  [.statementList, .switchCase, .moduleDeclaration]

section Statements

variable {options : Options} {node other : Node} {position place : Position}
  {construct : Construct}

/-- Whether two nodes are alike when one looks at the forms of their outputs only. -/
def Node.SameForm (node other : Node) : Prop :=
  node.form = other.form

theorem Node.SameForm.refl (node : Node) : node.SameForm node :=
  Eq.refl node.form

/-- Lists of as many statements and holes at the same positions match. -/
theorem Layout.statements_matches (within : Position.within node = Position.within other)
    (field : String) {list listToo : Value} (alike : list.Alike Node.SameForm listToo) :
    (Layout.statements node field list).Like Task.Matches (.statements other field listToo) := by
  refine Layout.Like.wanting (alike.itemsYieldText_eq id) <|
    Layout.Like.shaped alike.items fun items others _ _ all => Layout.Like.joined ?_
  rw [List.forall₂_map_left_iff, List.forall₂_map_right_iff]
  refine (forall₂_zipIdx all 0).imp ?_
  rintro ⟨item, index⟩ ⟨itemToo, indexToo⟩ ⟨alike, rfl⟩
  simp only [alike.isNull_eq, within, all.length_eq]
  split
  · exact .word _
  · exact .visit (.visit _ _ alike.isSome_node?_eq)

/-- A list with a node in the place of a node has nodes and holes at the same positions. -/
theorem Value.alike_put_item {value : Value} {index : Nat} {old statement : Node}
    (found : value.down (.item index) = .node old) (form : old.SameForm statement) :
    value.Alike Node.SameForm (Value.put (.node statement) [.item index] value) := by
  have same (value : Value) : value.Alike Node.SameForm value :=
    Value.alike_self Node.SameForm.refl value
  cases value with
  | list items =>
      refine Value.Alike.list_iff.mpr (List.Forall₂.set_right index (fun item _ => same item) ?_)
      intro item held
      change items.getD index .null = .node old at found
      rw [List.getD_eq_getElem?_getD, held] at found
      cases found
      exact .node form
  | _ => exact same _

/-- The layouts of a node and of the node with another statement in one of its lists
match. -/
theorem Construct.matches_of_lists (lists : construct ∈ Construct.listingStatements)
    (kind : node.kind = other.kind) (line : node.line = other.line)
    (same : ∀ field ∉ statementFields, other.field field = node.field field)
    (alike : ∀ field, (node.field field).Alike Node.SameForm (other.field field)) :
    (construct.layout options node position).Like Task.Matches
      (construct.layout options other position) := by
  have within : Position.within node = Position.within other := by
    simp only [Position.within, Node.importSource, Node.require, Node.field?, Node.missing, kind,
      line, same "source" (by decide)]
  simp only [Construct.listingStatements, List.mem_cons, List.not_mem_nil, or_false] at lists
  rcases lists with rfl | rfl | rfl
  · exact Layout.Like.needed kind line (alike "body")
      (Layout.statements_matches within _ (alike "body"))
  · have consequent : node.flag "consequent" = other.flag "consequent" := (alike _).isTruthy_eq
    refine .next (Layout.Like.optional (alike "test") (.word _) ?_) ?_
    · rw [within]
      exact .next (.word _) (.next (.visit (.visit _ _ (alike "test").isSome_node?_eq))
        (.next (.word _) (.word _)))
    · simp only [consequent]
      split
      · exact Layout.statements_matches within _ (alike "consequent")
      · exact Layout.statements_matches within _ (Value.alike_self Node.SameForm.refl _)
  · simp only [Construct.layout, same "id" (by decide)]
    refine .next (Layout.Like.needed kind line (alike "id") (.word _)) (.next (.word _)
      (.next (Layout.Like.needed kind line (alike "body") ?_) (.word _)))
    have body := alike "body"
    generalize node.field "body" = held at body ⊢
    generalize other.field "body" = heldToo at body ⊢
    cases body with
    | list length each => exact Layout.statements_matches within _ (.list length each)
    | node _ =>
        simp only [Layout.moduleBody, within]
        exact .visit (.visit _ _ rfl)
    | _ =>
        simp only [Layout.moduleBody, within]
        exact .visit (.visit _ _ rfl)

/-- Statements stand in the fields for statements. -/
theorem Construct.field_of_statement (lists : construct ∈ Construct.listingStatements)
    {field : String} {index : Nat} {value : Value}
    (held : .visit (.item field index) value place ∈ construct.tasks options node position) :
    field ∈ statementFields := by
  obtain ⟨part, listed, among⟩ := List.mem_flatMap.mp held
  have table : ∀ construct ∈ Construct.listingStatements, ∀ part ∈ construct.parts,
      ∀ reading ∈ part.readings, reading.shape = .node ∨ reading.field ∈ statementFields := by
    decide
  cases part.tasks_provided options node position _ among with
  | item read several =>
      refine (table construct lists part listed _ read).resolve_left ?_
      rcases several with rfl | ⟨rfl | rfl, -⟩ <;> exact Shape.noConfusion

/-- What is put in the place of an item stands there. -/
theorem Value.down_put_item {value old : Value} {index : Nat} (new : Value)
    (something : old ≠ .null) (found : value.down (.item index) = old) :
    (Value.put new [.item index] value).down (.item index) = new := by
  cases value with
  | list items =>
      change items.getD index .null = old at found
      change (items.set index new).getD index .null = new
      by_cases inside : index < items.length
      · simp [List.getD_eq_getElem?_getD, inside]
      · refine absurd (found.symm.trans ?_) something
        simp [List.getD_eq_getElem?_getD, inside]
  | _ => exact absurd found.symm something

/-- When another statement is put in the place of one in a list, the layout of the node with
the list changes in the slot of that statement, and nowhere else. -/
theorem Construct.layout_refilled_of_statement
    (known : Construct.ofKind? node.kind = some construct)
    (lists : construct ∈ Construct.listingStatements) (readable : node.Readable) {field : String}
    {index : Nat} {old : Node}
    (held : .visit (.item field index) (.node old) place ∈ construct.tasks options node position)
    {statement : Node} (yields : statement.form = .text) :
    (construct.layout options node position).Like
      (Task.Refilled (.item field index) (.node old) (.node statement) place)
      (construct.layout options (node.put (.node statement) field [.item index]) position) := by
  have noFunction : construct ≠ .functionDeclaration := by
    rintro rfl
    exact absurd lists (by decide)
  have found : (node.field field).down (.item index) = .node old :=
    Construct.valueAt_eq known (fun function => absurd function noFunction) held
  have listed := Construct.field_of_statement lists held
  have form : old.SameForm statement := by
    obtain ⟨_, ⟨⟩, below⟩ := readable.visits_nodes known held
    exact below.form_eq.trans yields.symm
  have matching : (construct.layout options node position).Like Task.Matches
      (construct.layout options (node.put (.node statement) field [.item index]) position) := by
    refine Construct.matches_of_lists lists rfl rfl (fun name plain => ?_) fun name => ?_
    · refine (node.put_field _ field _ name).trans (if_neg ?_)
      rintro rfl
      exact plain listed
    · rw [node.put_field]
      split
      · next same =>
          subst same
          exact Value.alike_put_item found form
      · exact Value.alike_self Node.SameForm.refl _
  have kind : (node.put (.node statement) field [.item index]).kind = node.kind := rfl
  have refilled := Construct.refilled_of_matches known kind
    (fun _ _ _ among => (readable.visits_nodes known among).imp fun _ => And.left)
    (fun function => absurd function noFunction) matching held fun slot apart real plain =>
      Source.valueAt_put_of_waysPart
        (fun _ among => apart.waysPart among (List.mem_singleton_self _)) real plain
  have filled : (Source.item field index).valueAt options
      (node.put (.node statement) field [.item index]) = .node statement := by
    change ((node.put (.node statement) field [.item index]).field field).down (.item index) = _
    rw [node.put_field, if_pos rfl]
    exact Value.down_put_item _ (by simp) found
  rwa [filled] at refilled

end Statements

end PhpRendering
