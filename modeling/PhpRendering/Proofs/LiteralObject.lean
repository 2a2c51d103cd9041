import PhpRendering.Proofs.Mention
import PhpRendering.Proofs.Unread

/-!
# Ways to the object of an access

A way through a tree may end at the object of a member access. When another literal is put
there, every node on the way is rendered as before but for the value that the way leads
into, unless it looks into the access itself: the access does, the access around it, and
the call whose substitute takes the receiver.
-/

namespace PhpRendering

/-! ## Ways to objects -/

/-- Whether some steps lead from a value to an access, or to a declaration made of it, and on
to its object. -/
inductive Value.HasObjectAt (access : Node) : List Step → Value → Prop where
  | here : HasObjectAt access [.member "object"] (.node access)
  | declared (name : String) :
      HasObjectAt access [.member "object"] (.node (Rule.asDeclaration access name))
  | member {node : Node} {name : String} {rest : List Step}
      (deeper : HasObjectAt access rest (node.field name)) :
      HasObjectAt access (.member name :: rest) (.node node)
  | item {items : List Value} {index : Nat} {rest : List Step}
      (deeper : HasObjectAt access rest (items.getD index .null)) :
      HasObjectAt access (.item index :: rest) (.list items)

namespace Value.HasObjectAt

variable {access : Node} {value : Value} {path route rest : List Step}

theorem leads (has : value.HasObjectAt access path) : LeadsToField "object" path := by
  induction has with
  | here => exact .here
  | declared _ => exact .here
  | member _ ih => exact .member ih
  | item _ ih => exact .item ih

theorem ne_nil (has : value.HasObjectAt access path) : path ≠ [] := by
  cases has <;> exact List.cons_ne_nil _ _

/-- A way that goes on leads from the value that the next step leads to. -/
theorem down {step : Step} (has : value.HasObjectAt access (step :: rest)) (more : rest ≠ []) :
    (value.down step).HasObjectAt access rest := by
  cases has with
  | here => exact absurd rfl more
  | declared _ => exact absurd rfl more
  | member deeper => exact deeper
  | item deeper => exact deeper

theorem at_route (has : value.HasObjectAt access (route ++ rest)) (more : rest ≠ []) :
    (value.at route).HasObjectAt access rest := by
  induction route generalizing value with
  | nil => exact has
  | cons step later ih => exact ih (has.down (by simp [more]))

/-- A way to an access goes on to its object. -/
theorem of_at (there : value.at path = .node access) :
    value.HasObjectAt access (path ++ [.member "object"]) := by
  induction path generalizing value with
  | nil =>
      cases there
      exact .here
  | cons step rest ih =>
      have deeper : (value.down step).HasObjectAt access (rest ++ [.member "object"]) := ih there
      cases step with
      | member name =>
          cases value with
          | node node => exact .member deeper
          | _ => cases (Value.at_null rest).symm.trans there
      | item index =>
          cases value with
          | list items => exact .item deeper
          | _ => cases (Value.at_null rest).symm.trans there

/-- A field that the way leads through is there. -/
theorem field_ne_null {node : Node} {name : String} (something : access.field "object" ≠ .null)
    (has : (Value.node node).HasObjectAt access (.member name :: rest)) :
    node.field name ≠ .null := by
  cases has with
  | here => exact something
  | declared given => rwa [Rule.asDeclaration_field (by decide)]
  | member deeper =>
      intro nothing
      rw [nothing] at deeper
      cases deeper

/-- A way that ends at the object of a node ends at an access or at a declaration. -/
theorem kind_of_object {node : Node}
    (has : (Value.node node).HasObjectAt access [.member "object"]) :
    node = access ∨ node.kind = "FunctionDeclaration" := by
  cases has with
  | here => exact .inl rfl
  | declared given => exact .inr rfl
  | member deeper => exact absurd rfl deeper.ne_nil

end Value.HasObjectAt

/-! ## Nodes with another object below -/

/-- Nodes look the same with something else as an object below, apart from the object. -/
theorem looksAlike_altered (new : Value) : LooksAlike (Node.Altered "object" new) where
  kind altered := .inl altered.kind_eq
  line altered := altered.line_eq
  fields altered name seen := by
    refine altered.field_alike ?_
    revert seen name
    decide
  name altered := by
    have named := altered.field_alike (by decide : "name" ≠ "object")
    have valued := altered.field_alike (by decide : "value" ≠ "object")
    unfold Node.name
    simp only [named.isNull_eq, named.text?_eq, valued.text?_eq, apply_ite Value.text?]
  shown altered name listed := by
    have beside : name ≠ "object" := by
      revert listed name
      decide
    exact (altered.field_alike beside).shown_eq fun _ _ deeper => deeper.kind_eq
  value altered _ := altered.field_alike (by decide)
  valueShown altered _ :=
    (altered.field_alike (by decide)).shown_eq fun _ _ deeper => deeper.kind_eq
  callee altered held heldToo := by
    have callee := altered.field_alike (by decide : "callee" ≠ "object")
    rw [held, heldToo] at callee
    cases callee with
    | node deeper => exact deeper.kind_eq
  called altered := altered.field_alike (by decide)
  formed altered construct _ name listed := by
    refine altered.field_alike ?_
    revert listed name
    cases construct <;> decide
  places altered inner := by rw [altered.origin_eq, inner.origin_eq]

section Objects

variable {new : Value} {path rest : List Step} {node : Node} {name : String}

/-- A way to a field ends with the step into it. -/
theorem LeadsToField.eq_append {last : String} (leads : LeadsToField last path) :
    ∃ way, path = way ++ [.member last] := by
  induction leads with
  | here => exact ⟨[], rfl⟩
  | member _ ih =>
      obtain ⟨way, rfl⟩ := ih
      exact ⟨_ :: way, rfl⟩
  | item _ ih =>
      obtain ⟨way, rfl⟩ := ih
      exact ⟨_ :: way, rfl⟩

/-- The fields of a node correspond to those with something else as an object below, but for
the object of the node itself. -/
theorem Node.field_put_alike (leads : LeadsToField "object" (.member name :: rest)) {field : String}
    (deep : field = "object" → .member name :: rest ≠ [Step.member "object"]) :
    (node.field field).Alike (Node.Altered "object" new)
      ((node.put new name rest).field field) := by
  rw [node.put_field]
  split
  · next same =>
      subst same
      cases leads with
      | here => exact absurd rfl (deep rfl)
      | member deeper => exact deeper.alike_put new _
  · exact Value.alike_self .same _

/-- The object of what stands on the way corresponds, unless the way ends there. -/
theorem LeadsToField.objects_alike {value : Value} (leads : LeadsToField "object" path)
    (deep : path ≠ [.member "object"]) (inner innerToo : Node) (held : value = .node inner)
    (heldToo : Value.put new path value = .node innerToo) :
    (inner.field "object").Alike (Node.Twin (Node.Altered "object" new))
      (innerToo.field "object") := by
  subst held
  cases path with
  | nil => cases leads
  | cons step rest =>
      cases step with
      | item index =>
          cases heldToo
          exact Value.alike_self (fun node => .base (.same node)) _
      | member name =>
          cases heldToo
          exact (Node.field_put_alike leads fun _ => deep).mono fun _ _ => .base

variable {options : Options} {position : Position}

/-- Whether a node at a position looks at the object at the end of a way: a call or an access
at its own object, an access at that of an access that is its object, for the connective
there, and a node with a substitute at that of its callee, for the receiver. -/
inductive Node.LooksAt (options : Options) (position : Position) (node : Node) :
    List Step → Prop where
  | object (known : Construct.ofKind? node.kind = some .call ∨
        Construct.ofKind? node.kind = some .member) :
      LooksAt options position node [.member "object"]
  | access {inner : Node} (known : Construct.ofKind? node.kind = some .member)
      (plain : node.substitute? options position = none)
      (held : node.field "object" = .node inner) (kind : inner.kind = "MemberExpression") :
      LooksAt options position node [.member "object", .member "object"]
  | receiver (asked : (node.substitute? options position).isSome = true) :
      LooksAt options position node [.member "callee", .member "object"]

/-- What the rule of a construct reads of a node corresponds, unless the node looks at what
is changed. -/
theorem Node.readFields_put_alike (leads : LeadsToField "object" (.member name :: rest))
    (blind : ¬ node.LooksAt options position (.member name :: rest)) {construct : Construct}
    (known : Construct.ofKind? node.kind = some construct) :
    ∀ field ∈ construct.readFields,
      (node.field field).Alike (Node.Altered "object" new)
        ((node.put new name rest).field field) := by
  have table : ∀ construct : Construct, "object" ∈ construct.readFields →
      construct = .call ∨ construct = .member := by
    intro construct
    cases construct <;> decide
  intro field read
  refine Node.field_put_alike leads ?_
  rintro rfl same
  refine blind (same ▸ .object ?_)
  rcases table construct read with rfl | rfl
  · exact .inl known
  · exact .inr known

/-- A node asks for the same with something else as an object below, unless it looks there. -/
theorem Node.asksAlike_put (leads : LeadsToField "object" (.member name :: rest))
    (blind : ¬ node.LooksAt options position (.member name :: rest)) :
    node.AsksAlike (Node.Altered "object" new) options position (node.put new name rest) := by
  have like := looksAlike_altered new
  have identifier {node other : Node} (altered : node.Altered "object" new other)
      (_ : node.kind = "Identifier") := altered.field_alike (by decide : "name" ≠ "object")
  have objects {field : String} (inner innerToo : Node)
      (apart : .member name :: rest ≠ [.member field, Step.member "object"])
      (own : field = "object" → .member name :: rest ≠ [Step.member "object"])
      (held : node.field field = .node inner)
      (heldToo : (node.put new name rest).field field = .node innerToo) :
      (inner.field "object").Alike (Node.Twin (Node.Altered "object" new))
        (innerToo.field "object") := by
    rw [node.put_field] at heldToo
    split at heldToo
    · next same =>
        subst same
        cases leads with
        | here => exact absurd rfl (own rfl)
        | member deeper =>
            refine deeper.objects_alike ?_ inner innerToo held heldToo
            rintro rfl
            exact apart rfl
    · cases held.symm.trans heldToo
      exact Value.alike_self (fun node => .base (.same node)) _
  constructor
  · intro known called calledToo held heldToo
    have callee : (node.field "callee").Alike (Node.Altered "object" new)
        ((node.put new name rest).field "callee") :=
      Node.field_put_alike leads fun same => absurd same (by decide)
    rw [held, heldToo] at callee
    cases callee with
    | node altered => exact (Node.Twin.base altered).methodSubstitute?_eq like identifier options
  · intro known
    exact (Node.Twin.base (.put leads node)).propertySubstitute?_eq like identifier options position
  · intro asked called calledToo
    exact objects called calledToo (fun same => blind (same ▸ .receiver asked))
      fun same => absurd same (by decide)
  · intro known plain inner innerToo held heldToo kind
    exact objects inner innerToo (fun same => blind (same ▸ .access known plain held kind))
      (fun _ same => blind (same ▸ .object (.inr known))) held heldToo

/-- A node is laid out alike with something else as an object below, unless it looks there. -/
theorem Node.layout_put (leads : LeadsToField "object" (.member name :: rest))
    (blind : ¬ node.LooksAt options position (.member name :: rest)) :
    (node.layout options position).Like (Task.Paired (Node.Altered "object" new))
        ((node.put new name rest).layout options position) ∧
      node.owesTerminator options position =
        (node.put new name rest).owesTerminator options position := by
  have like := looksAlike_altered new
  have twin : Node.Twin (Node.Altered "object" new) node (node.put new name rest) :=
    .base (.put leads node)
  refine twin.layout_paired (fun _ _ paired => paired) like rfl options position
    (Node.asksAlike_put leads blind) ?_ ?_
  · intro construct known field read
    exact (Node.readFields_put_alike leads blind known field read).mono fun _ _ => .base
  · refine fun _ => Layout.Like.parameters_paired (fun _ _ paired => paired) like twin rfl ?_ ?_
    · exact Node.field_put_alike leads fun same => absurd same (by decide)
    · exact Node.field_put_alike leads fun same => absurd same (by decide)

end Objects

/-! ## Values on the way -/

/-- Whether a source has the value that a way leads into: a copy whatever the way is. -/
def Source.LiesOn (source : Source) (path : List Step) : Prop :=
  source = .copy ∨ ∃ rest, source.Leads path rest

/-- Of two sources that are apart one at most lies on a way. -/
theorem Source.Apart.not_liesOn {first second : Source} (apart : first.Apart second)
    {path : List Step} (lies : first.LiesOn path) : ¬ second.LiesOn path := by
  rintro (copy | ⟨later, leads⟩)
  · exact apart.symm.ne_copy copy
  · rcases lies with copy | ⟨rest, leadsToo⟩
    · exact apart.ne_copy copy
    · obtain ⟨route, listed, starts⟩ := leadsToo.route
      exact (leads.waysPart apart listed).1 starts

section Sources

variable {options : Options} {access node child : Node} {position place : Position}
  {source : Source} {construct : Construct} {name : String} {more rest : List Step}

/-- No list of objects is rendered. -/
theorem Construct.item_ne_object {index : Nat} {value : Value}
    (held : .visit (.item name index) value place ∈ construct.tasks options node position) :
    name ≠ "object" := by
  have table : ∀ part ∈ construct.parts, ∀ reading ∈ part.readings, reading.field = "object" →
      reading.shape = .node := by
    cases construct <;> decide
  obtain ⟨part, listed, among⟩ := List.mem_flatMap.mp held
  cases part.tasks_provided options node position _ among with
  | item read several =>
      rintro rfl
      have single := table part listed _ read rfl
      simp only at single
      subst single
      rcases several with same | ⟨same | same, -⟩ <;> cases same

/-- A way to an object leads into no part of a route to what is rendered. -/
theorem Construct.not_prefix_route {value : Value}
    (held : .visit source value place ∈ construct.tasks options node position)
    {path : List Step} (leads : LeadsToField "object" path) (beyond : path ∉ source.routes)
    {route : List Step} (listed : route ∈ source.routes) : ¬ path <+: route := by
  rintro ⟨tail, same⟩
  have longer : tail ≠ [] := by
    rintro rfl
    rw [List.append_nil] at same
    exact beyond (same ▸ listed)
  -- the step into the object is a step of the route, and not the last one
  have inside : Step.member "object" ∈ route.dropLast := by
    obtain ⟨way, rfl⟩ := leads.eq_append
    rw [← same, List.dropLast_append_of_ne_nil longer]
    exact List.mem_append_left _ (List.mem_append_right _ (List.mem_singleton_self _))
  cases source with
  | item name index =>
      cases List.mem_singleton.mp listed
      cases List.mem_singleton.mp inside
      exact Construct.item_ne_object held rfl
  | _ =>
      simp only [Source.routes, List.mem_cons, List.not_mem_nil, or_false] at listed
      rcases listed with rfl | rfl <;> simp at inside

/-- A declaration made of what has the object at the end of a way has it there too. -/
theorem Value.HasObjectAt.asDeclaration {function : Node}
    (has : (Value.node function).HasObjectAt access (.member name :: rest)) (plain : name ≠ "id")
    (given : String) :
    (Value.node (Rule.asDeclaration function given)).HasObjectAt access (.member name :: rest) := by
  cases has with
  | here => exact .declared given
  | declared other =>
      rw [Rule.asDeclaration_asDeclaration]
      exact .declared given
  | member deeper =>
      refine .member ?_
      rwa [Rule.asDeclaration_field plain]

/-- What a way leads into has the object further on the way. -/
theorem Source.Leads.hasObjectAt (leads : source.Leads (.member name :: more) rest)
    (has : (Value.node node).HasObjectAt access (.member name :: more)) (real : source ≠ .copy)
    (beyond : .member name :: more ∉ source.routes)
    (value : source.valueAt options node = .node child) :
    (Value.node child).HasObjectAt access rest := by
  have further (route : List Step) (listed : route ∈ source.routes) {rest : List Step}
      (way : route ++ rest = .member name :: more) :
      ((Value.node node).at route).HasObjectAt access rest := by
    refine Value.HasObjectAt.at_route (way ▸ has) ?_
    rintro rfl
    rw [List.append_nil] at way
    exact beyond (way ▸ listed)
  cases leads with
  | copy plain rest => exact absurd rfl real
  | field name rest =>
      rw [← value]
      exact further [_] (List.mem_singleton_self _) rfl
  | item name index rest =>
      rw [← value]
      exact further [_, _] (List.mem_singleton_self _) rfl
  | receiver rest =>
      rw [← value]
      exact further [_, _] (List.mem_singleton_self _) rfl
  | declarator index rest =>
      rw [← value]
      exact further [_, _, _] (List.mem_singleton_self _) rfl
  | @method name plain rest =>
      have function := further [.member "value"] (List.mem_singleton_self _) rfl
      simp only [valueAt] at value
      generalize (Value.node node).at [.member "value"] = held at value function
      cases held with
      | node function =>
          cases value
          exact Value.HasObjectAt.asDeclaration ‹_› plain _
      | _ => cases value
  | left index rest =>
      cases value
      exact .member (further [_, _, .member "left"] (List.mem_cons_self ..) rfl)
  | right index rest =>
      cases value
      exact .member (further [_, _, .member "right"]
        (List.mem_cons_of_mem _ (List.mem_singleton_self _)) rfl)
  | param index rest =>
      cases value
      exact .member (further [.member "params", .item index] (List.mem_cons_self ..) rfl)
  | default index rest =>
      cases value
      exact .member (further [.member "defaults", .item index]
        (List.mem_cons_of_mem _ (List.mem_singleton_self _)) rfl)

/-- A route that begins a way leads into the source. -/
theorem Source.leads_of_route {path route : List Step} (real : source ≠ .copy)
    (plain : source ≠ .method) (listed : route ∈ source.routes) (starts : route <+: path) :
    ∃ rest, source.Leads path rest := by
  obtain ⟨rest, rfl⟩ := starts
  cases source with
  | copy => exact absurd rfl real
  | method => exact absurd rfl plain
  | field name =>
      cases List.mem_singleton.mp listed
      exact ⟨_, .field name rest⟩
  | item name index =>
      cases List.mem_singleton.mp listed
      exact ⟨_, .item name index rest⟩
  | receiver =>
      cases List.mem_singleton.mp listed
      exact ⟨_, .receiver rest⟩
  | declarator index =>
      cases List.mem_singleton.mp listed
      exact ⟨_, .declarator index rest⟩
  | pattern index =>
      simp only [Source.routes, List.mem_cons, List.not_mem_nil, or_false] at listed
      rcases listed with rfl | rfl
      · exact ⟨_, .left index rest⟩
      · exact ⟨_, .right index rest⟩
  | defaulted index =>
      simp only [Source.routes, List.mem_cons, List.not_mem_nil, or_false] at listed
      rcases listed with rfl | rfl
      · exact ⟨_, .param index rest⟩
      · exact ⟨_, .default index rest⟩

/-- The name of a value is the same with something else as an object below. -/
theorem Node.name_field_put (leads : LeadsToField "object" (.member name :: more)) (new : Value)
    {field : String} (plain : field ≠ "object") :
    ((node.put new name more).field field).name = (node.field field).name := by
  have alike : (node.field field).Alike (Node.Altered "object" new)
      ((node.put new name more).field field) :=
    Node.field_put_alike leads fun same => absurd same plain
  exact ((alike.mono fun _ _ => .base).name_eq (looksAlike_altered new)).symm

/-- The function of a method that no way leads into is declared as before. -/
theorem Source.valueAt_method_put (leads : LeadsToField "object" (.member name :: more))
    (beside : ¬ ∃ rest, Source.method.Leads (.member name :: more) rest)
    (value : Source.method.valueAt options node = .node child) (new : Value) :
    Source.method.valueAt options (node.put new name more) = .node child := by
  have key : ((node.put new name more).field "key").name = (node.field "key").name :=
    Node.name_field_put leads new (by decide)
  obtain ⟨function, held⟩ : ∃ function, node.field "value" = .node function := by
    simp only [Source.valueAt] at value
    split at value
    · next function held => exact ⟨function, held⟩
    · exact ⟨child, value⟩
  rw [Source.valueAt_method held] at value
  by_cases own : name = "value"
  · subst own
    have changed : (node.put new "value" more).field "value" =
        Value.put new more (.node function) := by
      rw [node.put_field, if_pos rfl, held]
    cases more with
    | nil =>
        obtain ⟨way, same⟩ := leads.eq_append
        simpa using congrArg List.getLast? same
    | cons step rest =>
        cases step with
        | item index =>
            rw [Source.valueAt_method changed, key]
            exact value
        | member field =>
            have isId : field = "id" := by
              by_contra plain
              exact beside ⟨_, .method plain rest⟩
            subst isId
            rw [Source.valueAt_method changed, key, Rule.asDeclaration_put_id]
            exact value
  · have kept : (node.put new name more).field "value" = .node function := by
      rw [node.put_field, if_neg (Ne.symm own), held]
    rw [Source.valueAt_method kept, key]
    exact value

/-- A copy of a construction has its object further on the same way. -/
theorem Source.valueAt_put_of_construction (kind : node.kind = "NewExpression")
    (has : (Value.node node).HasObjectAt access (.member name :: more))
    (accessKind : access.kind = "MemberExpression")
    (value : Source.copy.valueAt options node = .node child) :
    (Value.node child).HasObjectAt access (.member name :: more) ∧
      ∀ new, Source.copy.valueAt options (node.put new name more) =
        Value.put new (.member name :: more) (.node child) := by
  obtain rfl : Rule.asCall node = child := by
    simpa only [Source.valueAt, if_pos kind, Value.node.injEq] using value
  constructor
  · cases has with
    | here => exact absurd (kind.symm.trans accessKind) (by decide)
    | declared given => exact absurd kind (by decide : "FunctionDeclaration" ≠ "NewExpression")
    | member deeper => exact .member deeper
  · intro new
    have kindToo : (node.put new name more).kind = "NewExpression" := kind
    simp only [Source.valueAt, if_pos kindToo]
    rfl

/-- A function expression is declared with what its fields have, but for its name. -/
theorem Source.valueAt_put_of_function (kind : node.kind = "FunctionExpression")
    (has : (Value.node node).HasObjectAt access (.member name :: more))
    (something : access.field "object" ≠ .null)
    (value : Source.copy.valueAt options node = .node child) :
    ((Value.node child).HasObjectAt access (.member name :: more) ∧
      ∀ new, Source.copy.valueAt options (node.put new name more) =
        Value.put new (.member name :: more) (.node child)) ∨
    ∀ new, Source.copy.valueAt options (node.put new name more) = .node child := by
  have other : node.kind ≠ "NewExpression" := by
    rw [kind]
    decide
  obtain rfl : Rule.asDeclaration node (node.field "id").name = child := by
    simpa only [Source.valueAt, if_neg other, Value.node.injEq] using value
  have copied (new : Value) : Source.copy.valueAt options (node.put new name more) =
      .node (Rule.asDeclaration (node.put new name more) (node.field "id").name) := by
    have otherToo : (node.put new name more).kind ≠ "NewExpression" := other
    simp only [Source.valueAt, if_neg otherToo]
    rw [Node.name_field_put has.leads new (by decide : "id" ≠ "object")]
  by_cases own : name = "id"
  · subst own
    refine .inr fun new => (copied new).trans ?_
    rw [Rule.asDeclaration_put_id]
  · refine .inl ⟨has.asDeclaration own _, fun new => (copied new).trans ?_⟩
    rw [Rule.asDeclaration_put own (has.field_ne_null something)]
    rfl

/-- What a node has rendered for a source has the object further on the way, when the source
lies on it; otherwise it is the same whatever the object is. -/
theorem Construct.valueAt_put_cases (known : Construct.ofKind? node.kind = some construct)
    (defaults : construct = .functionDeclaration → (node.field "defaults").text? = none)
    (held : .visit source (.node child) place ∈ construct.tasks options node position)
    (has : (Value.node node).HasObjectAt access (.member name :: more))
    (kind : access.kind = "MemberExpression") (something : access.field "object" ≠ .null)
    (beyond : .member name :: more ∉ source.routes) :
    (source.LiesOn (.member name :: more) ∧ ∃ rest, (Value.node child).HasObjectAt access rest ∧
      ∀ new, source.valueAt options (node.put new name more) = Value.put new rest (.node child)) ∨
    ∀ new, source.valueAt options (node.put new name more) = .node child := by
  have value := Construct.valueAt_eq known defaults held
  by_cases copy : source = .copy
  · subst copy
    obtain ⟨part, listed, among⟩ := List.mem_flatMap.mp held
    cases part.tasks_provided options node position _ among with
    | call read =>
        subst read
        obtain rfl := Construct.eq_construction listed
        have construction := Construct.kind_eq known (by decide : ∀ entry ∈ Construct.byKind,
          entry.2 = .construction → entry.1 = "NewExpression")
        exact .inl ⟨.inl rfl, _, Source.valueAt_put_of_construction construction has kind value⟩
    | declaration read =>
        subst read
        obtain rfl := Construct.eq_functionExpression listed
        have function := Construct.kind_eq known (by decide : ∀ entry ∈ Construct.byKind,
          entry.2 = .functionExpression → entry.1 = "FunctionExpression")
        exact (Source.valueAt_put_of_function function has something value).imp_left
          fun inside => ⟨.inl rfl, _, inside⟩
  · by_cases leading : ∃ rest, source.Leads (.member name :: more) rest
    · obtain ⟨rest, leads⟩ := leading
      have inside := leads.hasObjectAt has copy beyond value
      refine .inl ⟨.inr ⟨rest, leads⟩, rest, inside, fun new => ?_⟩
      refine leads.valueAt_put beyond value fun first later way => ?_
      subst way
      exact inside.field_ne_null something
    · refine .inr fun new => ?_
      by_cases method : source = .method
      · subst method
        exact Source.valueAt_method_put has.leads leading value new
      · rw [Source.valueAt_put_of_waysPart (fun route listed => ⟨?_, ?_⟩) copy method, value]
        · exact fun starts => leading (Source.leads_of_route copy method listed starts)
        · exact Construct.not_prefix_route held has.leads beyond listed

def Task.IsReceiver : Task → Prop
  | .visit .receiver _ _ => True
  | _ => False

/-- A call has the receiver of its callee rendered for a substitute only. -/
theorem Part.substitute?_of_call_receiver (known : Construct.ofKind? node.kind = some .call) :
    ∀ task ∈ Part.call.tasks options node position, task.IsReceiver →
      (node.substitute? options position).isSome = true := by
  refine Task.forall_needed (fun _ => False.elim) fun callee found => ?_
  refine Task.forall_shaped (fun _ _ => False.elim) fun called same => ?_
  refine Task.forall_shaped (fun _ _ => False.elim) fun substitute asked => ?_
  have callee_eq := (Node.field_of_field? found).trans (Value.asNode_eq_ok same)
  have taken : node.substitute? options position = substitute :=
    Node.substitute?_of_call known callee_eq asked
  cases substitute with
  | some substitute => exact fun _ _ _ => taken ▸ rfl
  | none =>
      obtain ⟨rest, crashes, same⟩ := Task.continued_eq node position callee
      simp only [same]
      refine List.forall_mem_append.mpr ⟨List.forall_mem_singleton.mpr False.elim,
        List.forall_mem_append.mpr ⟨?_, fun task held => ?_⟩⟩
      · exact Task.forall_wanting (fun _ => False.elim) <|
          Task.forall_shaped (fun _ _ => False.elim) fun items _ =>
            Task.forall_items fun _ _ _ _ => False.elim
      · obtain ⟨crash, rfl⟩ := crashes task held
        exact False.elim

/-- An access has the receiver of its callee rendered for a substitute only. -/
theorem Part.substitute?_of_access_receiver (known : Construct.ofKind? node.kind = some .member) :
    ∀ task ∈ Part.access.tasks options node position, task.IsReceiver →
      (node.substitute? options position).isSome = true := by
  refine Task.forall_needed (fun _ => False.elim) fun object foundObject => ?_
  refine Task.forall_needed (fun _ => False.elim) fun property foundProperty => ?_
  refine Task.forall_shaped (fun _ _ => False.elim) fun substitute asked => ?_
  have taken := Node.substitute?_of_member known asked
  cases substitute with
  | some substitute => exact fun _ _ _ => taken ▸ rfl
  | none =>
      exact List.forall_mem_append.mpr ⟨List.forall_mem_singleton.mpr False.elim,
        List.forall_mem_singleton.mpr False.elim⟩

/-- Only a substitute takes the receiver of a callee. -/
theorem Construct.substitute?_of_receiver (known : Construct.ofKind? node.kind = some construct)
    {value : Value} (held : .visit .receiver value place ∈ construct.tasks options node position) :
    (node.substitute? options position).isSome = true := by
  have table : ∀ construct : Construct, ∀ part ∈ construct.parts, ∀ reading ∈ part.readings,
      reading.field = "callee" → construct = .call ∧ part = .call ∨
        construct = .member ∧ part = .access ∨ part = .construction := by
    intro construct
    cases construct <;> decide
  obtain ⟨part, listed, among⟩ := List.mem_flatMap.mp held
  cases part.tasks_provided options node position _ among with
  | receiver read =>
      rcases table construct part listed _ read rfl with ⟨rfl, rfl⟩ | ⟨rfl, rfl⟩ | rfl
      · exact Part.substitute?_of_call_receiver known _ among trivial
      · exact Part.substitute?_of_access_receiver known _ among trivial
      · cases List.mem_singleton.mp (Task.visit_mem_wanting_iff.mp among)

/-- The way to an object does not end where a node has something rendered, unless the node
looks at the object. -/
theorem Construct.not_mem_routes (known : Construct.ofKind? node.kind = some construct)
    {value : Value} (held : .visit source value place ∈ construct.tasks options node position)
    {path : List Step} (leads : LeadsToField "object" path)
    (blind : ¬ node.LooksAt options position path) : path ∉ source.routes := by
  intro listed
  obtain ⟨way, rfl⟩ := leads.eq_append
  cases source with
  | field name =>
      have same := List.mem_singleton.mp listed
      obtain rfl : "object" = name := by simpa using congrArg List.getLast? same
      rw [same] at blind
      have table : ∀ construct : Construct, ∀ part ∈ construct.parts, ∀ reading ∈ part.readings,
          reading.field = "object" → construct = .call ∨ construct = .member ∨
            part = .construction := by
        intro construct
        cases construct <;> decide
      obtain ⟨part, within, among⟩ := List.mem_flatMap.mp held
      cases part.tasks_provided options node position _ among with
      | field read =>
          rcases table construct part within _ read rfl with rfl | rfl | rfl
          · exact blind (.object (.inl known))
          · exact blind (.object (.inr known))
          · cases List.mem_singleton.mp (Task.visit_mem_wanting_iff.mp among)
  | receiver =>
      have same := List.mem_singleton.mp listed
      exact blind (same ▸ .receiver (Construct.substitute?_of_receiver known held))
  | pattern index =>
      simp only [Source.routes, List.mem_cons, List.not_mem_nil, or_false] at listed
      rcases listed with same | same
      · simpa using congrArg List.getLast? same
      · simpa using congrArg List.getLast? same
  | defaulted index =>
      simp only [Source.routes, List.mem_cons, List.not_mem_nil, or_false] at listed
      rcases listed with same | same
      · simpa using congrArg List.getLast? same
      · simpa using congrArg List.getLast? same
  | _ => simpa using congrArg List.getLast? (List.mem_singleton.mp listed)

end Sources

end PhpRendering
