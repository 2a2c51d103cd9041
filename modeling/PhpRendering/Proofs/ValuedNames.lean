import PhpRendering.Proofs.Counterpart
import PhpRendering.Proofs.Lookups
import PhpRendering.Proofs.Throughout

/-!
# Names in the field `value`

A node is named by its field `name`, or by its field `value` when it has no name, so an
identifier may be spelled in two ways. A tree in which some identifiers are spelled in the
second way renders as before, with one exception: the name of a member is looked up in the
table of substitutes only when it stands in the field `name`.
-/

namespace PhpRendering

/-! ## Trees with names in the other field -/

/-- The field that takes the place of a field when the name and the value of a node trade
places. -/
def tradedField (field : String) : String :=
  if field = "name" then "value" else if field = "value" then "name" else field

theorem tradedField_traded (field : String) : tradedField (tradedField field) = field := by
  unfold tradedField
  split_ifs with isName isValue <;> simp_all

mutual

/-- A value in which the chosen nodes have their names in the field `value`. -/
def Value.valued (chosen : Origin → Bool) : Value → Value
  | .node node => .node (node.valued chosen)
  | .list items => .list (valuedItems chosen items)
  | .scalar value => .scalar value
  | .record members => .record members
  | .foreign origin => .foreign origin

def Node.valued (chosen : Origin → Bool) : Node → Node
  | ⟨origin, kind, fields, location⟩ =>
      ⟨origin, kind, valuedFields chosen (chosen origin) fields, location⟩

def valuedItems (chosen : Origin → Bool) : List Value → List Value
  | [] => []
  | item :: rest => item.valued chosen :: valuedItems chosen rest

def valuedFields (chosen : Origin → Bool) (trades : Bool) :
    List (String × Value) → List (String × Value)
  | [] => []
  | (name, value) :: rest =>
      (if trades then tradedField name else name, value.valued chosen) ::
        valuedFields chosen trades rest

end

variable {chosen : Origin → Bool}

theorem valuedItems_eq (items : List Value) :
    valuedItems chosen items = items.map (Value.valued chosen) := by
  induction items with
  | nil => rfl
  | cons item rest ih => rw [valuedItems, ih, List.map_cons]

namespace Node

variable (node : Node)

@[simp]
theorem valued_origin : (node.valued chosen).origin = node.origin := by
  cases node
  rfl

@[simp]
theorem valued_kind : (node.valued chosen).kind = node.kind := by
  cases node
  rfl

@[simp]
theorem valued_line : (node.valued chosen).line = node.line := by
  cases node
  rfl

theorem valued_field (name : String) :
    (node.valued chosen).field name =
      (node.field (if chosen node.origin then tradedField name else name)).valued chosen := by
  obtain ⟨origin, kind, fields, location⟩ := node
  simp only [valued, field]
  generalize chosen origin = trades
  induction fields with
  | nil => rfl
  | cons entry rest ih =>
      obtain ⟨known, value⟩ := entry
      have same : (name == if trades then tradedField known else known) =
          ((if trades then tradedField name else name) == known) := by
        rw [Bool.eq_iff_iff, beq_iff_eq, beq_iff_eq]
        cases trades with
        | false => rfl
        | true =>
            constructor
            · rintro rfl
              exact tradedField_traded known
            · rintro rfl
              exact (tradedField_traded name).symm
      simp only [valuedFields, List.lookup_cons, same]
      split
      · rfl
      · exact ih

/-- A field that is neither the name nor the value stays where it is. -/
theorem valued_field_of_ne {name : String} (notName : name ≠ "name") (notValue : name ≠ "value") :
    (node.valued chosen).field name = (node.field name).valued chosen := by
  have kept : tradedField name = name := by
    unfold tradedField
    rw [if_neg notName, if_neg notValue]
  rw [valued_field, kept, ite_self]

/-- A node that is not chosen keeps all its fields. -/
theorem valued_field_of_kept {node : Node} (kept : chosen node.origin = false) (name : String) :
    (node.valued chosen).field name = (node.field name).valued chosen := by
  rw [valued_field, kept]
  rfl

end Node

namespace Value

variable (value : Value)

@[simp]
theorem valued_isNull : (value.valued chosen).isNull = value.isNull := by
  cases value <;> rfl

@[simp]
theorem valued_isTruthy : (value.valued chosen).isTruthy = value.isTruthy := by
  cases value with
  | list items => cases items <;> rfl
  | _ => rfl

@[simp]
theorem valued_text? : (value.valued chosen).text? = value.text? := by
  cases value <;> rfl

end Value

/-! ## Containment -/

mutual

theorem Value.valued_leadsTo (target : Origin) (value : Value) :
    (value.valued chosen).leadsTo target = value.leadsTo target := by
  cases value with
  | node node => exact node.valued_contains target
  | list items => exact valuedItems_leadTo target items
  | _ => rfl

/-- A node contains the same places, whichever field the names stand in. -/
theorem Node.valued_contains (target : Origin) (node : Node) :
    (node.valued chosen).contains target = node.contains target := by
  obtain ⟨origin, kind, fields, location⟩ := node
  rw [Node.valued, Node.contains, Node.contains, valuedFields_leadTo target (chosen origin) fields]

theorem valuedItems_leadTo (target : Origin) (items : List Value) :
    itemsLeadTo target (valuedItems chosen items) = itemsLeadTo target items := by
  cases items with
  | nil => rfl
  | cons item rest =>
      have later := valuedItems_leadTo target rest
      cases item with
      | node node =>
          have first := node.valued_contains target
          simp only [valuedItems, Value.valued, itemsLeadTo, first, later]
      | _ => exact later

theorem valuedFields_leadTo (target : Origin) (trades : Bool) (fields : List (String × Value)) :
    membersLeadTo target (valuedFields chosen trades fields) = membersLeadTo target fields := by
  cases fields with
  | nil => rfl
  | cons entry rest =>
      obtain ⟨name, value⟩ := entry
      rw [valuedFields, membersLeadTo, membersLeadTo, value.valued_leadsTo,
        valuedFields_leadTo target trades rest]

end

/-! ## Counterparts -/

structure Node.IsSpelledByName (node : Node) : Prop where
  identifier : node.kind = "Identifier"
  named : ∃ letters, node.field "name" = .text letters ∧ letters ≠ ""
  noValue : node.field "value" = .null

def Node.IsEligible (chosen : Origin → Bool) (node : Node) : Prop :=
  chosen node.origin = true → node.IsSpelledByName

def Node.checkEligible (chosen : Origin → Bool) (node : Node) : Bool :=
  !chosen node.origin ||
    node.kind == "Identifier" && (node.field "value").isNull &&
      (node.field "name").text?.any (· != "")

theorem Node.isEligible_of_check (node : Node) (checked : node.checkEligible chosen = true) :
    node.IsEligible chosen := by
  intro picked
  unfold Node.checkEligible at checked
  simp only [picked, Bool.not_true, Bool.false_or, Bool.and_eq_true, beq_iff_eq] at checked
  obtain ⟨⟨identifier, noValue⟩, named⟩ := checked
  obtain ⟨letters, held, some⟩ := (Option.any_eq_true _ _).mp named
  exact ⟨identifier, ⟨letters, Value.eq_text held, bne_iff_ne.mp some⟩,
    Value.eq_null_of_isNull noValue⟩

structure Node.IsValued (chosen : Origin → Bool) (node other : Node) : Prop where
  same : other = node.valued chosen
  eligible : (Value.node node).Throughout (Node.IsEligible chosen)

theorem Value.Throughout.alike_valued {value : Value}
    (eligible : value.Throughout (Node.IsEligible chosen)) :
    value.Alike (Node.IsValued chosen) (value.valued chosen) := by
  induction eligible with
  | node here fields _ => exact .node ⟨rfl, .node here fields⟩
  | @list items each ih =>
      rw [Value.valued, valuedItems_eq]
      refine Value.Alike.list_iff.mpr ?_
      rw [List.forall₂_map_right_iff]
      exact List.forall₂_same.mpr ih
  | scalar value => exact .scalar value
  | record members => exact .record members
  | foreign origin => exact .foreign origin origin

namespace Node.IsValued

variable {node other : Node} (valued : node.IsValued chosen other)

include valued

theorem kind_eq : node.kind = other.kind := by
  rw [valued.same, valued_kind]

theorem origin_eq : node.origin = other.origin := by
  rw [valued.same, valued_origin]

/-- Only identifiers are chosen. -/
theorem kept_of_kind (kind : node.kind ≠ "Identifier") : chosen node.origin = false :=
  Bool.eq_false_iff.mpr fun picked => kind (valued.eligible.here picked).identifier

theorem field_alike_of_ne {name : String} (notName : name ≠ "name") (notValue : name ≠ "value") :
    (node.field name).Alike (Node.IsValued chosen) (other.field name) := by
  rw [valued.same, node.valued_field_of_ne notName notValue]
  exact (valued.eligible.field name).alike_valued

/-- Every field of a node that is no identifier corresponds. -/
theorem field_alike_of_kind (kind : node.kind ≠ "Identifier") (name : String) :
    (node.field name).Alike (Node.IsValued chosen) (other.field name) := by
  rw [valued.same, valued_field_of_kept (valued.kept_of_kind kind)]
  exact (valued.eligible.field name).alike_valued

/-- The name of a node is the same in both fields. -/
theorem name_eq : node.name = other.name := by
  rw [valued.same]
  cases picked : chosen node.origin with
  | false => simp [Node.name, valued_field_of_kept picked, apply_ite Value.text?]
  | true =>
      obtain ⟨-, ⟨letters, named, -⟩, noValue⟩ := valued.eligible.here picked
      simp [Node.name, valued_field, picked, tradedField, named, noValue, Value.isNull, Value.valued,
        Value.text?]

end Node.IsValued

/-- Nodes look the same whichever field their names stand in. -/
theorem looksAlike_isValued (chosen : Origin → Bool) : LooksAlike (Node.IsValued chosen) where
  kind valued := .inl valued.kind_eq
  line valued := by rw [valued.same, Node.valued_line]
  fields valued name seen := by
    have plain : ∀ name ∈ seenFields, name ≠ "name" ∧ name ≠ "value" := by decide
    exact valued.field_alike_of_ne (plain name seen).1 (plain name seen).2
  name valued := valued.name_eq
  shown valued name listed := by
    have plain : ∀ name ∈ shownFields, name ≠ "name" ∧ name ≠ "value" := by decide
    exact (valued.field_alike_of_ne (plain name listed).1 (plain name listed).2).shown_eq
      fun _ _ => Node.IsValued.kind_eq
  value valued listed := valued.field_alike_of_kind (fun kind => absurd (kind ▸ listed) (by decide)) _
  valueShown valued listed := by
    have alike := valued.field_alike_of_kind
      (fun kind => absurd (kind ▸ listed) (by decide)) "value"
    exact alike.shown_eq fun _ _ => Node.IsValued.kind_eq
  callee valued held heldToo := by
    have callee := valued.field_alike_of_ne (by decide : "callee" ≠ "name") (by decide)
    rw [held, heldToo] at callee
    cases callee with
    | node inner => exact inner.kind_eq
  called valued := valued.field_alike_of_ne (by decide) (by decide)
  formed valued construct _ name listed := by
    have plain : name ≠ "name" ∧ name ≠ "value" := by
      revert listed
      revert name
      cases construct <;> decide
    exact valued.field_alike_of_ne plain.1 plain.2
  places valued valuedToo := by rw [valued.origin_eq, valuedToo.origin_eq]

/-! ## What is asked for under a chosen name -/

structure Node.AccessesChosen (chosen : Origin → Bool) (member : Node) (name : String) : Prop where
  accesses : member.Accesses name
  picked : ∃ property, member.field "property" = .node property ∧ chosen property.origin = true

/-- Whether a call, or a member access that is no callee, asks for a substitute under a
chosen name and finds one. -/
inductive Node.FindsChosen (options : Options) (chosen : Origin → Bool) (node : Node)
    (isCallee : Bool) : Prop where
  | method {callee : Node} {name : String} {substitute : Substitute}
      (kind : node.kind = "CallExpression" ∨ node.kind = "NewExpression")
      (held : node.field "callee" = .node callee) (named : callee.AccessesChosen chosen name)
      (found : options.substitutes.method? name = some substitute)
  | property {name : String} {substitute : Substitute} (noCallee : isCallee = false)
      (named : node.AccessesChosen chosen name)
      (found : options.substitutes.property? name = some substitute)

theorem Node.findsChosen_inOriginals (options : Options) (chosen : Origin → Bool) :
    FoundInOriginals (Node.FindsChosen options chosen) where
  call node isCallee kind found place := by
    cases found with
    | method _ held named found => exact .method (.inr kind) held named found
    | property _ named _ => exact absurd named.accesses.kind (by decide : "CallExpression" ≠ _)
  kind node isCallee found := by
    cases found with
    | method kind _ _ _ => rcases kind with kind | kind <;> rw [kind] <;> decide
    | property _ named _ =>
        rw [named.accesses.kind]
        decide
  anywhere node found := by
    cases found with
    | method kind held named found => exact .method kind held named found
    | property noCallee _ _ => cases noCallee

section Asking

variable {options : Options} {node other : Node}

theorem Node.IsValued.flag_eq (valued : node.IsValued chosen other) {name : String}
    (notName : name ≠ "name") (notValue : name ≠ "value") : node.flag name = other.flag name :=
  (valued.field_alike_of_ne notName notValue).isTruthy_eq

/-- A member that a chosen identifier names is looked up under no name once its name is in
the other field. -/
theorem Node.AccessesChosen.accessedName_eq {name : String}
    (named : node.AccessesChosen chosen name) (valued : node.IsValued chosen other) :
    other.accessedName = .ok "" := by
  obtain ⟨accesses, property, held, picked⟩ := named
  have below := valued.eligible.field "property"
  have propertyToo : other.field "property" = .node (property.valued chosen) := by
    rw [valued.same, node.valued_field_of_ne (by decide) (by decide), held]
    rfl
  rw [held] at below
  have noValue := (below.here picked).noValue
  unfold Node.accessedName
  rw [← valued.flag_eq (by decide) (by decide), accesses.plain, propertyToo]
  simp [Node.valued_field, picked, tradedField, noValue, Value.valued, Value.substituteName]

/-- Any other member is looked up under the same name. -/
theorem Node.IsValued.accessedName_eq (valued : node.IsValued chosen other)
    (kind : node.kind = "MemberExpression") (unnamed : ∀ name, ¬ node.AccessesChosen chosen name) :
    node.accessedName = other.accessedName := by
  have below := valued.eligible.field "property"
  unfold Node.accessedName
  rw [← valued.flag_eq (by decide) (by decide)]
  split
  · rfl
  · next plain =>
      rw [valued.same, node.valued_field_of_ne (by decide) (by decide)]
      cases held : node.field "property" with
      | node property =>
          rw [held] at below
          have kept : chosen property.origin = false := by
            refine Bool.eq_false_iff.mpr fun picked => ?_
            obtain ⟨identifier, ⟨letters, named, -⟩, -⟩ := below.here picked
            exact unnamed letters ⟨⟨kind, Bool.eq_false_iff.mpr plain, property, held, identifier,
              named⟩, property, held, picked⟩
          simp only [Value.valued, Node.valued_kind, Node.valued_field_of_kept kept]
          generalize property.field "name" = name
          cases name with
          | list items => cases items <;> rfl
          | _ => rfl
      | _ => rfl

/-- A callee finds the same substitute, unless it finds one under a chosen name. -/
theorem Rule.methodSubstitute?_valued (valued : node.IsValued chosen other)
    (unasked : ∀ name, node.AccessesChosen chosen name → options.substitutes.method? name = none) :
    Rule.methodSubstitute? options node = Rule.methodSubstitute? options other := by
  unfold Rule.methodSubstitute?
  rw [← valued.kind_eq]
  split
  · next kind =>
      by_cases asks : ∃ name, node.AccessesChosen chosen name
      · obtain ⟨name, named⟩ := asks
        rw [named.accessedName_eq valued, named.accesses.accessedName_eq]
        exact congrArg Except.ok (unasked name named)
      · rw [valued.accessedName_eq kind (not_exists.mp asks)]
  · rfl

/-- A member access finds the same substitute, unless it finds one under a chosen name. -/
theorem Rule.propertySubstitute?_valued (valued : node.IsValued chosen other)
    (kind : node.kind = "MemberExpression") {position : Position}
    (unasked : ∀ name, position.isCallee = false → node.AccessesChosen chosen name →
      options.substitutes.property? name = none) :
    Rule.propertySubstitute? options node position =
      Rule.propertySubstitute? options other position := by
  unfold Rule.propertySubstitute?
  rw [← valued.flag_eq (by decide) (by decide)]
  split
  · rfl
  · next neither =>
      have noCallee : position.isCallee = false := by
        revert neither
        cases position.isCallee <;> simp
      by_cases asks : ∃ name, node.AccessesChosen chosen name
      · obtain ⟨name, named⟩ := asks
        rw [named.accessedName_eq valued, named.accesses.accessedName_eq]
        cases position.checkParent with
        | error crash => rfl
        | ok _ =>
            change (if position.isTarget then _ else _) = (if position.isTarget then _ else _)
            split
            · rfl
            · exact congrArg Except.ok (unasked name noCallee named)
      · rw [valued.accessedName_eq kind (not_exists.mp asks)]

/-- Two nodes of which the first one finds nothing under a chosen name ask for the same. -/
theorem Node.Twin.asksAlike_valued {position : Position}
    (twin : Node.Twin (Node.IsValued chosen) node other)
    (unasked : ¬ node.FindsChosen options chosen position.isCallee) :
    node.AsksAlike (Node.IsValued chosen) options position other where
  method known called calledToo held heldToo := by
    have callee := twin.field (by decide : "callee" ≠ "id") fun valued =>
      valued.field_alike_of_ne (by decide) (by decide)
    rw [held, heldToo] at callee
    cases callee with
    | node valued =>
        refine Rule.methodSubstitute?_valued valued fun name named => ?_
        have kind : node.kind = "CallExpression" := Construct.kind_eq known (by decide)
        exact Option.eq_none_iff_forall_ne_some.mpr fun substitute found =>
          unasked (.method (.inl kind) held named found)
  property known := by
    have kind : node.kind = "MemberExpression" := Construct.kind_eq known (by decide)
    cases twin with
    | base valued =>
        refine Rule.propertySubstitute?_valued valued kind fun name noCallee named => ?_
        exact Option.eq_none_iff_forall_ne_some.mpr fun substitute found =>
          unasked (.property noCallee named found)
    | call _ => exact absurd kind (by decide : "CallExpression" ≠ _)
    | declaration _ _ => exact absurd kind (by decide : "FunctionDeclaration" ≠ _)
    | identifier _ _ => exact absurd kind (by decide : "Identifier" ≠ _)
    | assignment _ _ _ => exact absurd kind (by decide : "AssignmentExpression" ≠ _)
  receiver _ := by
    refine Value.Alike.objects (fun valued => valued.field_alike_of_ne (by decide) (by decide)) ?_
    exact (twin.field (by decide) fun valued =>
      valued.field_alike_of_ne (by decide) (by decide)).mono fun _ _ => .base
  object _ _ inner innerToo held heldToo _ := by
    refine Value.Alike.objects (fun valued => valued.field_alike_of_ne (by decide) (by decide)) ?_
      inner innerToo held heldToo
    exact (twin.field (by decide) fun valued =>
      valued.field_alike_of_ne (by decide) (by decide)).mono fun _ _ => .base

end Asking

/-! ## Renderings -/

/-- What the rule of a construct reads of a node and of its counterpart corresponds. -/
theorem Node.Twin.readFields_alike {node other : Node}
    (twin : Node.Twin (Node.IsValued chosen) node other) {construct : Construct}
    (known : Construct.ofKind? node.kind = some construct) :
    ∀ name ∈ construct.readFields,
      (node.field name).Alike (Node.Twin (Node.IsValued chosen)) (other.field name) := by
  intro name read
  by_cases isId : name = "id"
  · subst isId
    exact twin.id fun valued => valued.field_alike_of_ne (by decide) (by decide)
  by_cases plain : name ≠ "name" ∧ name ≠ "value"
  · exact (twin.field isId fun valued => valued.field_alike_of_ne plain.1 plain.2).mono
      fun _ _ => .base
  -- The rules that read a name or a value are those of nodes that are no copies.
  have original : construct ∉ [.identifier, .call, .functionDeclaration, .binary] := by
    have listed : "name" ∈ construct.readFields ∨ "value" ∈ construct.readFields := by
      by_cases isName : name = "name"
      · exact .inl (isName ▸ read)
      · exact .inr (not_not.mp (fun isValue => plain ⟨isName, isValue⟩) ▸ read)
    revert listed
    cases construct <;> decide
  have other (kind : String) (copied : kind ∈ ["Identifier", "CallExpression",
      "FunctionDeclaration", "AssignmentExpression"]) : node.kind ≠ kind := by
    rintro rfl
    refine original ?_
    have table : ∀ kind ∈ ["Identifier", "CallExpression", "FunctionDeclaration",
        "AssignmentExpression"], ∀ construct, Construct.ofKind? kind = some construct →
        construct ∈ [Construct.identifier, .call, .functionDeclaration, .binary] := by decide
    exact table _ copied construct known
  cases twin with
  | base valued =>
      exact (valued.field_alike_of_kind (other _ (by decide)) name).mono fun _ _ => .base
  | call _ => exact absurd rfl (other "CallExpression" (by decide))
  | declaration _ _ => exact absurd rfl (other "FunctionDeclaration" (by decide))
  | identifier _ _ => exact absurd rfl (other "Identifier" (by decide))
  | assignment _ _ _ => exact absurd rfl (other "AssignmentExpression" (by decide))

theorem Node.Twin.kind_valued {node other : Node}
    (twin : Node.Twin (Node.IsValued chosen) node other) : node.kind = other.kind := by
  cases twin with
  | base valued => exact valued.kind_eq
  | _ => rfl

/-- Two tasks for counterparts at one position, of which the first one visits nothing that
finds a substitute under a chosen name. -/
structure Task.IsValued (options : Options) (chosen : Origin → Bool) (task other : Task) : Prop where
  paired : task.Paired (Node.IsValued chosen) other
  unasked : ∀ source value place, task = .visit source value place →
    ¬ value.Finds (Node.FindsChosen options chosen) place.isCallee

/-- Counterparts are laid out alike, by what the first one has visited. -/
theorem Node.Twin.layout_valued {options : Options} {node other : Node} {position : Position}
    (twin : Node.Twin (Node.IsValued chosen) node other)
    (unasked : ¬ (Value.node node).Finds (Node.FindsChosen options chosen) position.isCallee) :
    (node.layout options position).Like (Task.IsValued options chosen)
        (other.layout options position) ∧
      node.owesTerminator options position = other.owesTerminator options position := by
  have like := looksAlike_isValued chosen
  have asks : node.AsksAlike (Node.IsValued chosen) options position other :=
    twin.asksAlike_valued fun found => unasked (.here found)
  have parameters : (Layout.parameters node).Like (Task.Paired (Node.IsValued chosen))
      (.parameters other) ∧ node.parametersYieldText = other.parametersYieldText := by
    refine Layout.Like.parameters_paired (fun _ _ paired => paired) like twin twin.kind_valued ?_ ?_
    · exact twin.field (by decide) fun valued => valued.field_alike_of_ne (by decide) (by decide)
    · exact twin.field (by decide) fun valued => valued.field_alike_of_ne (by decide) (by decide)
  obtain ⟨layouts, owes⟩ := twin.layout_paired (fun _ _ paired => paired) like twin.kind_valued
    options position asks (fun _ known => twin.readFields_alike known) fun _ => parameters
  refine ⟨layouts.strengthen fun task among counterpart _ paired => ⟨paired, ?_⟩, owes⟩
  rintro source value place rfl found
  rw [node.layout_tasks] at among
  exact unasked (found.of_visit (Node.findsChosen_inOriginals options chosen) among)

structure Node.EntersValued (chosen : Origin → Bool) (function other : Node) : Prop where
  twin : Node.Twin (Node.IsValued chosen) function other
  declared : function.kind = "FunctionDeclaration"

/-- A tree in which nothing is found under a chosen name renders as before when the chosen
names are in the other field. -/
theorem Node.IsValued.render_like {options : Options} {node other : Node} {position : Position}
    (valued : node.IsValued chosen other)
    (unasked : ¬ (Value.node node).Finds (Node.FindsChosen options chosen) position.isCallee) :
    (render options (.node node) position).Like (Node.EntersValued chosen)
      (render options (.node other) position) := by
  have start : Task.IsValued options chosen (.visit .copy (.node node) position)
      (.visit .copy (.node other) position) := by
    refine ⟨.visit _ _ (.node (.base valued)), ?_⟩
    rintro _ _ _ ⟨⟩
    exact unasked
  refine PhpRendering.render_like options ?_ ?_ ?_ start
  · rintro _ _ _ _ _ _ ⟨related, unasked⟩
    cases related with
    | visit _ _ alike =>
        cases alike with
        | node twin => exact twin.layout_valued (unasked _ _ _ rfl)
  · rintro _ _ _ _ _ _ ⟨related, -⟩
    cases related with
    | visit _ _ alike => exact alike.isSome_node?_eq
  · rintro _ _ ⟨related, -⟩
    cases related with
    | enter twin declared => exact ⟨twin, declared⟩

end PhpRendering
