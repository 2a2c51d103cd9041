import PhpRendering.Proofs.Gap

/-!
# What is written of the children

Every construct writes what it has rendered, and in order; only the substitute for
characters drops operands. Three statements look at the ends of texts: a conditional
statement ends its line, and the loops take the terminators off their first clauses.
-/

namespace PhpRendering

/-! ## Straight layouts -/

/-- Whether a layout writes all that it does, in order and as it is. -/
def Layout.isStraight : Layout → Bool
  | .next first second => first.isStraight && second.isStraight
  | .swap _ _ => false
  | .unwritten _ => false
  | .clause _ => false
  | .line _ => false
  | .changed _ _ => false
  | _ => true

/-- What a straight layout has rendered is written. -/
theorem Layout.shows_of_isStraight {layout : Layout} (straight : layout.isStraight = true)
    {source : Source} {value : Value} {position : Position}
    (held : .visit source value position ∈ layout.tasks) (after : String) :
    ∃ behind, layout.Shows source after behind ∧ after.toList.Sublist behind.toList := by
  induction layout with
  | visit known valueToo place =>
      cases List.mem_singleton.mp held
      exact ⟨after, .visit _ _, List.Sublist.refl _⟩
  | next first second ih ihSecond =>
      rw [Layout.isStraight, Bool.and_eq_true] at straight
      rcases List.mem_append.mp held with among | among
      · obtain ⟨behind, shown, sub⟩ := ih straight.1 among
        refine ⟨_, .first shown, ?_⟩
        rw [String.toList_append]
        exact List.sublist_append_of_sublist_left sub
      · obtain ⟨behind, shown, sub⟩ := ihSecond straight.2 among
        exact ⟨behind, .second shown, sub⟩
  | word text => cases held
  | enter function => cases List.mem_singleton.mp held
  | report diagnostic => cases List.mem_singleton.mp held
  | stop fault => cases List.mem_singleton.mp held
  | swap first second => cases straight
  | unwritten layout => cases straight
  | clause layout => cases straight
  | line layout => cases straight
  | changed change layout => cases straight

namespace Layout

variable {node : Node} {field : String}

@[simp]
theorem isStraight_joined (layouts : List Layout) :
    (joined layouts).isStraight = layouts.all isStraight := by
  induction layouts with
  | nil => rfl
  | cons first rest ih => exact congrArg (first.isStraight && ·) ih

@[simp]
theorem isStraight_separatedBy (separator : String) (layouts : List Layout) :
    (separatedBy separator layouts).isStraight = layouts.all isStraight := by
  induction layouts with
  | nil => rfl
  | cons first rest ih =>
      cases rest with
      | nil => exact (Bool.and_true _).symm
      | cons second later =>
          rw [List.all_cons, ← ih]
          rfl

@[simp]
theorem isStraight_slots (source : Nat → Source) (position : Position) (values : List Value) :
    (slots source position values).all isStraight = true := by
  simp [slots, isStraight]

@[simp]
theorem isStraight_wanting (fits : Bool) (layout : Layout) :
    (wanting fits layout).isStraight = layout.isStraight := by
  cases fits with
  | true => rfl
  | false => exact Bool.and_true _

theorem isStraight_needed {next : Value → Layout}
    (each : ∀ value, node.field? field = some value → (next value).isStraight = true) :
    (needed node field next).isStraight = true := by
  unfold needed Node.require
  cases found : node.field? field with
  | none => rfl
  | some value => exact each value found

theorem isStraight_optional {absent : Layout} {next : Value → Layout}
    (nothing : absent.isStraight = true)
    (each : ∀ value, node.field? field = some value → (next value).isStraight = true) :
    (optional node field absent next).isStraight = true := by
  unfold optional
  cases found : node.field? field with
  | none => exact nothing
  | some value => exact each value found

theorem isStraight_shaped {α : Type} {result : Except Crash α} {next : α → Layout}
    (each : ∀ found, result = .ok found → (next found).isStraight = true) :
    (shaped result next).isStraight = true := by
  cases result with
  | error crash => rfl
  | ok found => exact each found rfl

@[simp]
theorem isStraight_present : (present node field).isStraight = true :=
  isStraight_needed fun _ _ => rfl

@[simp]
theorem isStraight_child : (child node field).isStraight = true :=
  isStraight_needed fun _ _ => rfl

@[simp]
theorem isStraight_text : (text node field).isStraight = true :=
  isStraight_needed fun _ _ => isStraight_wanting _ _

@[simp]
theorem isStraight_side : (side node field).isStraight = true :=
  isStraight_needed fun _ _ => rfl

@[simp]
theorem isStraight_optionalChild (absent before after : String) :
    (optionalChild node field absent before after).isStraight = true :=
  isStraight_optional rfl fun _ _ => rfl

theorem isStraight_optionalText (absent before : String) :
    (optionalText node field absent before).isStraight = true :=
  isStraight_optional rfl fun _ _ => isStraight_wanting _ _

@[simp]
theorem isStraight_textSlots (source : Nat → Source) (position : Position) (values : List Value) :
    (textSlots source position values).all isStraight = true := by
  simp [textSlots, isStraight]

@[simp]
theorem isStraight_statements (list : Value) : (statements node field list).isStraight = true := by
  refine (isStraight_wanting _ _).trans (isStraight_shaped fun items _ => ?_)
  simp only [isStraight_joined, List.all_map, List.all_eq_true]
  intro entry _
  dsimp only [Function.comp]
  split <;> rfl

theorem isStraight_optionalItems {together : List Layout → Layout}
    (each : ∀ layouts, layouts.all isStraight = true → (together layouts).isStraight = true) :
    (optionalItems node field together).isStraight = true :=
  isStraight_shaped fun _ _ => each _ (isStraight_slots ..)

theorem isStraight_receiver (source : Source) : (receiver source node).isStraight = true :=
  isStraight_needed fun _ _ => rfl

theorem isStraight_callReceiver : (callReceiver node).isStraight = true :=
  isStraight_needed fun _ _ => isStraight_shaped fun _ _ => isStraight_receiver _

/-- Only the substitute for characters drops operands. -/
theorem isStraight_substituted {substitute : Substitute} (ordered : substitute ≠ .charAt) :
    (substituted node substitute).isStraight = true := by
  have receiver : (callReceiver node).isStraight = true := isStraight_callReceiver
  have operands (wrap : Layout → Layout)
      (plain : ∀ layout, layout.isStraight = true → (wrap layout).isStraight = true) :
      (optionalItems node "arguments" fun layouts => joined (layouts.map wrap)).isStraight =
        true := by
    refine isStraight_optionalItems fun layouts straight => ?_
    rw [isStraight_joined, List.all_map, List.all_eq_true]
    exact fun layout held => plain layout (List.all_eq_true.mp straight layout held)
  cases substitute with
  | receiverFirst function =>
      have all := operands (.next (.word ", ") ·) fun layout straight => straight
      simp [substituted, isStraight, receiver, all]
  | receiverLast function =>
      have all := operands (.next · (.word ", ")) fun layout straight => by simp [isStraight, straight]
      simp [substituted, isStraight, receiver, all]
  | propertyFunction function => simp [substituted, isStraight, isStraight_receiver]
  | charAt => exact absurd rfl ordered
  | constant text => rfl

theorem isStraight_unlessUnsupported {next : Layout} (straight : next.isStraight = true) :
    (unlessUnsupported node next).isStraight = true := by
  unfold unlessUnsupported
  split
  · rfl
  · exact straight

theorem isStraight_parameter (param : Value) (index : Nat) :
    (parameter node param index).isStraight = true := by
  refine isStraight_shaped fun default _ => isStraight_shaped fun found _ => ?_
  split
  · exact isStraight_needed fun _ _ => isStraight_needed fun _ _ => rfl
  · split <;> rfl

theorem isStraight_parameters : (parameters node).isStraight = true := by
  refine isStraight_shaped fun params _ => ?_
  rw [isStraight_separatedBy, List.all_map, List.all_eq_true]
  exact fun entry _ => isStraight_parameter entry.1 entry.2

theorem isStraight_superclass : (superclass node).isStraight = true := by
  refine isStraight_optional rfl fun value _ => isStraight_shaped fun parent _ => ?_
  split <;> rfl

theorem isStraight_alternate : (alternate node).isStraight = true := by
  refine isStraight_optional rfl fun value _ => isStraight_shaped fun branch _ => ?_
  dsimp only
  split <;> simp [isStraight]

theorem isStraight_moduleBody (body : Value) : (moduleBody node body).isStraight = true := by
  cases body with
  | list items => exact isStraight_statements _
  | _ => rfl

theorem isStraight_exported : (exported node).isStraight = true := by
  unfold exported
  split
  · exact isStraight_needed fun _ _ => isStraight_statements _
  · simp only [isStraight_wanting, isStraight, Bool.true_and]
    exact isStraight_shaped fun _ _ => rfl

theorem isStraight_arguments : (arguments node).isStraight = true :=
  (isStraight_wanting _ _).trans
    (isStraight_optionalItems fun layouts straight => by rwa [isStraight_separatedBy])

theorem isStraight_imported (position : Position) : (imported node position).isStraight = true := by
  have named : (importedModule node position).isStraight = true := by
    unfold importedModule
    split <;> rfl
  unfold imported
  rw [isStraight, named, Bool.true_and]
  exact isStraight_optional (isStraight_needed fun _ _ => rfl) fun _ _ => rfl

end Layout

open Layout in
/-- The layouts of readable nodes are straight, apart from those of the constructs that look at
the ends of texts. -/
theorem Construct.layout_isStraight {options : Options} {node : Node} {position : Position}
    (readable : node.Readable)
    (ordered : node.substitute? options position ≠ some .charAt) {construct : Construct}
    (known : Construct.ofKind? node.kind = some construct)
    (other : construct ∉ [.ifStatement, .forStatement, .forInStatement]) :
    (construct.layout options node position).isStraight = true := by
  cases construct with
  | statementList => exact isStraight_needed fun _ _ => isStraight_statements _
  | variableDeclaration =>
      refine isStraight_needed fun _ _ => (isStraight_wanting _ _).trans ?_
      refine isStraight_shaped fun items _ => ?_
      rw [isStraight_joined]
      exact isStraight_slots ..
  | variableDeclarator => simp [Construct.layout, isStraight]
  | identifier =>
      simp only [Construct.layout]
      split
      · rfl
      · split <;> rfl
  | punctuator => exact isStraight_needed fun _ _ => rfl
  | literal => exact isStraight_optional rfl fun _ _ => rfl
  | selfReference => rfl
  | binary => simp [Construct.layout, isStraight]
  | update =>
      rw [Construct.layout, update_of_form (readable.argument_form known)]
      simp only [isStraight, isStraight_child, Bool.true_and]
      refine isStraight_needed fun operator _ => ?_
      split <;> rfl
  | expressionStatement => exact isStraight_text
  | call =>
      refine isStraight_needed fun callee found => isStraight_shaped fun called access => ?_
      refine isStraight_shaped fun substitute asked => ?_
      cases substitute with
      | some substitute =>
          refine isStraight_substituted ?_
          rintro rfl
          have called_eq := (Node.field_of_field? found).trans (Value.asNode_eq_ok access)
          exact ordered (Node.substitute?_of_call known called_eq asked)
      | none =>
          have checked : (shaped position.checkParent fun _ => empty).isStraight = true :=
            isStraight_shaped fun _ _ => rfl
          have form : callee.form = .text := by
            rw [← Node.field_of_field? found]
            exact readable.callee_form known
          simp [continued_of_form form, isStraight, isStraight_arguments, checked]
  | construction => exact isStraight_wanting _ _
  | member =>
      refine isStraight_needed fun object _ => isStraight_needed fun property _ => ?_
      refine isStraight_shaped fun substitute asked => ?_
      cases substitute with
      | some substitute =>
          refine isStraight_substituted ?_
          rintro rfl
          exact ordered (Node.substitute?_of_member known asked)
      | none =>
          simp only [access, isStraight, Bool.true_and]
          split <;> rfl
  | functionDeclaration =>
      simp [Construct.layout, isStraight, isStraight_parameters, parameterTexts]
  | functionExpression => rfl
  | classDeclaration => simp [Construct.layout, isStraight, isStraight_superclass]
  | methodDefinition =>
      refine isStraight_needed fun key _ => isStraight_needed fun value _ => ?_
      exact isStraight_unlessUnsupported (isStraight_shaped fun _ _ => rfl)
  | objectLiteral =>
      have entries : (optionalItems node "properties" (separatedBy ", ")).isStraight = true :=
        isStraight_optionalItems fun layouts straight => by rwa [isStraight_separatedBy]
      simp [Construct.layout, isStraight, entries]
  | arrayLiteral =>
      have items : (shaped (node.optionalItems "elements") fun items =>
          separatedBy ", " (items.zipIdx.map fun entry =>
            if entry.1.isNull then .word "null"
            else .visit (.item "elements" entry.2) entry.1 (.within node))).isStraight = true := by
        refine isStraight_shaped fun items _ => ?_
        rw [isStraight_separatedBy, List.all_map, List.all_eq_true]
        intro entry _
        dsimp only [Function.comp]
        split <;> rfl
      simp [Construct.layout, isStraight, items]
  | property =>
      refine isStraight_needed fun key _ => isStraight_needed fun value _ => ?_
      exact isStraight_unlessUnsupported
        (isStraight_shaped fun _ _ => isStraight_shaped fun _ _ => rfl)
  | returnStatement => exact isStraight_optionalText ..
  | switchStatement =>
      have cases : (shaped (node.optionalItems "cases") fun cases =>
          joined ((textSlots (.item "cases") (.within node) cases).map fun clause =>
            .next clause (.word "\n"))).isStraight = true := by
        refine isStraight_shaped fun items _ => ?_
        rw [isStraight_joined, List.all_map, List.all_eq_true]
        intro layout held
        have straight := isStraight_textSlots (.item "cases") (.within node) items
        simp [isStraight, List.all_eq_true.mp straight layout held]
      simp [Construct.layout, isStraight, cases]
  | switchCase => simp [Construct.layout, isStraight]
  | breakStatement => rfl
  | moduleDeclaration =>
      have body : (needed node "body" (moduleBody node)).isStraight = true :=
        isStraight_needed fun _ _ => isStraight_moduleBody _
      simp [Construct.layout, isStraight, body]
  | exportDeclaration => exact isStraight_exported
  | importDeclaration =>
      refine (isStraight_wanting _ _).trans ?_
      exact isStraight_optionalItems fun layouts straight => by rwa [isStraight_joined]
  | importSpecifier => exact isStraight_imported position
  | ifStatement => exact absurd (List.mem_cons_self ..) other
  | forStatement => exact absurd (by decide) other
  | forInStatement => exact absurd (by decide) other

/-! ## Words behind slots -/

namespace Layout

variable {source : Source} {value : Value} {position : Position} {after closing : String}
  {layouts : List Layout}

/-- A word at the end of layouts one after another. -/
theorem words_joined (last : layouts.getLast? = some (.word closing)) :
    closing.toList.Sublist (joined layouts).words.toList := by
  induction layouts with
  | nil => cases last
  | cons first rest ih =>
      rw [joined, words, String.toList_append]
      cases rest with
      | nil =>
          cases last
          exact List.sublist_append_left _ _
      | cons second later =>
          rw [List.getLast?_cons_cons] at last
          exact List.sublist_append_of_sublist_right (ih last)

/-- Behind what is written of layouts stands the word at their end. -/
theorem shows_joined (last : layouts.getLast? = some (.word closing))
    (each : ∀ layout ∈ layouts, .visit source value position ∈ layout.tasks →
      ∃ behind, layout.Shows source after behind)
    (held : .visit source value position ∈ (joined layouts).tasks) :
    ∃ behind, (joined layouts).Shows source after behind ∧
      closing.toList.Sublist behind.toList := by
  induction layouts with
  | nil => cases held
  | cons first rest ih =>
      obtain ⟨here, later⟩ := List.forall_mem_cons.mp each
      rcases List.mem_append.mp held with among | among
      · obtain ⟨behind, shown⟩ := here among
        refine ⟨_, .first shown, ?_⟩
        rw [String.toList_append]
        refine List.sublist_append_of_sublist_right (words_joined ?_)
        cases rest with
        | nil =>
            cases last
            cases among
        | cons second more => rwa [List.getLast?_cons_cons] at last
      · cases rest with
        | nil => cases among
        | cons second more =>
            rw [List.getLast?_cons_cons] at last
            obtain ⟨behind, shown, sub⟩ := ih last later among
            exact ⟨behind, .second shown, sub⟩

theorem shows_needed {node : Node} {field : String} {next : Value → Layout}
    (each : ∀ found, .visit source value position ∈ (next found).tasks →
      ∃ behind, (next found).Shows source after behind)
    (held : .visit source value position ∈ (needed node field next).tasks) :
    ∃ behind, (needed node field next).Shows source after behind := by
  unfold needed at held ⊢
  split at held
  · exact each _ held
  · cases List.mem_singleton.mp held

theorem shows_optional {node : Node} {field : String} {absent : Layout} {next : Value → Layout}
    (nothing : absent.tasks = [])
    (each : ∀ found, .visit source value position ∈ (next found).tasks →
      ∃ behind, (next found).Shows source after behind)
    (held : .visit source value position ∈ (optional node field absent next).tasks) :
    ∃ behind, (optional node field absent next).Shows source after behind := by
  unfold optional at held ⊢
  split at held
  · exact each _ held
  · rw [nothing] at held
    cases held

theorem shows_shaped {α : Type} {result : Except Crash α} {next : α → Layout}
    (each : ∀ found, .visit source value position ∈ (next found).tasks →
      ∃ behind, (next found).Shows source after behind)
    (held : .visit source value position ∈ (shaped result next).tasks) :
    ∃ behind, (shaped result next).Shows source after behind := by
  unfold shaped at held ⊢
  split at held
  · exact each _ held
  · cases List.mem_singleton.mp held

theorem visit_mem_wanting_iff {fits : Bool} {layout : Layout} :
    .visit source value position ∈ (wanting fits layout).tasks ↔
      .visit source value position ∈ layout.tasks := by
  rw [tasks_wanting]
  exact Task.visit_mem_wanting_iff

/-- A layout of which a text is wanted has nothing more behind it. -/
theorem Shows.wanting {layout : Layout} {behind : String} (shown : layout.Shows source after behind)
    (fits : Bool) : (Layout.wanting fits layout).Shows source after behind := by
  cases fits with
  | true => exact shown
  | false =>
      have followed : (Layout.next layout (.stop (.crash .notAName))).Shows source after
          (behind ++ "") := .first shown
      rwa [String.append_empty] at followed

theorem source_of_child {node : Node} {field : String}
    (held : .visit source value position ∈ (child node field).tasks) : source = .field field := by
  unfold child needed at held
  split at held
  · cases List.mem_singleton.mp held
    rfl
  · cases List.mem_singleton.mp held

theorem source_of_text {node : Node} {field : String}
    (held : .visit source value position ∈ (text node field).tasks) : source = .field field := by
  unfold text needed at held
  split at held
  · cases List.mem_singleton.mp (visit_mem_wanting_iff.mp held)
    rfl
  · cases List.mem_singleton.mp held

theorem source_of_statements {node : Node} {field : String} {list : Value}
    (held : .visit source value position ∈ (statements node field list).tasks) :
    ∃ index, source = .item field index := by
  have held := visit_mem_wanting_iff.mp held
  unfold shaped at held
  split at held
  · next items _ =>
      rw [tasks_joined, List.mem_flatMap] at held
      obtain ⟨layout, listed, among⟩ := held
      obtain ⟨entry, -, rfl⟩ := List.mem_map.mp listed
      split at among
      · cases among
      · cases List.mem_singleton.mp among
        exact ⟨_, rfl⟩
  · cases List.mem_singleton.mp held

/-- The layout of an alternate has one slot, and braces around a block. -/
theorem alternate_of_slot {node branch : Node}
    (held : .visit source (.node branch) position ∈ (alternate node).tasks) :
    source = .field "alternate" ∧ alternate node =
      let slot := wanting (Value.node branch).form.isText (.visit source (.node branch) (.within node))
      if branch.kind = "BlockStatement" then joined [.word " else \x7b", slot, .word "\x7d"]
      else .next (.word " else ") slot := by
  unfold alternate optional at held ⊢
  cases found : node.field? "alternate" with
  | none =>
      rw [found] at held
      cases held
  | some value =>
      rw [found] at held
      dsimp only [shaped] at held ⊢
      cases access : value.asNode with
      | error crash =>
          rw [access] at held
          cases List.mem_singleton.mp held
      | ok inner =>
          rw [access] at held
          dsimp only at held ⊢
          have same : source = .field "alternate" ∧ .node branch = value := by
            split at held
            · simp only [joined, Layout.tasks, List.nil_append, List.append_nil] at held
              cases List.mem_singleton.mp (visit_mem_wanting_iff.mp held)
              exact ⟨rfl, rfl⟩
            · simp only [Layout.tasks, List.nil_append] at held
              cases List.mem_singleton.mp (visit_mem_wanting_iff.mp held)
              exact ⟨rfl, rfl⟩
          obtain ⟨rfl, rfl⟩ := same
          cases access
          exact ⟨rfl, rfl⟩

/-- What is written of one of some separated layouts is written. -/
theorem shows_separatedBy (separator : String)
    (each : ∀ layout ∈ layouts, .visit source value position ∈ layout.tasks →
      ∃ behind, layout.Shows source after behind)
    (held : .visit source value position ∈ (separatedBy separator layouts).tasks) :
    ∃ behind, (separatedBy separator layouts).Shows source after behind := by
  induction layouts with
  | nil => cases held
  | cons first rest ih =>
      obtain ⟨here, later⟩ := List.forall_mem_cons.mp each
      cases rest with
      | nil => exact here held
      | cons second more =>
          rcases List.mem_append.mp held with among | among
          · obtain ⟨behind, shown⟩ := here among
            exact ⟨_, .first shown⟩
          · obtain ⟨behind, shown⟩ := ih later among
            exact ⟨behind, .second (.second shown)⟩

end Layout

/-! ## Open nodes -/

/-- The kinds of nodes whose text may end with that of a statement in them. -/
def openKinds : List String :=
  ["BlockStatement", "ClassBody", "ExportDeclaration", "ExportDefaultDeclaration",
    "ExportNamedDeclaration", "ModuleDeclaration", "Program", "SwitchCase"]

/-- Whether the grammar lets a node of a kind stand where a source has it from. Lists of
statements, and what may end with one, are no expressions: they stand in lists of statements
and of cases, as bodies and branches, and as declarations that are exported. -/
def Source.admits (source : Source) (kind : String) : Bool :=
  !openKinds.contains kind ||
    match source with
    | .item name _ => ["body", "cases", "consequent"].contains name
    | .field "alternate" => kind == "BlockStatement"
    | .field "declaration" => Rule.isDeclarationKind kind
    | .field name => ["body", "consequent"].contains name
    | _ => false

def openFields : List String :=
  ["alternate", "body", "cases", "consequent", "declaration"]

/-- An open node stands in a field for open nodes. -/
theorem Source.fields_of_admits {source : Source} {kind : String} (isOpen : kind ∈ openKinds)
    (admits : source.admits kind = true) : ∃ name ∈ openFields, source.fields = [name] := by
  have listed : openKinds.contains kind = true := List.contains_iff_mem.mpr isOpen
  unfold Source.admits at admits
  rw [listed, Bool.not_true, Bool.false_or] at admits
  split at admits
  · next name index =>
      refine ⟨name, ?_, rfl⟩
      simp only [List.contains_iff_mem, List.mem_cons, List.not_mem_nil, or_false] at admits
      rcases admits with rfl | rfl | rfl <;> decide
  · exact ⟨_, by decide, rfl⟩
  · exact ⟨_, by decide, rfl⟩
  · next name _ _ =>
      refine ⟨name, ?_, rfl⟩
      simp only [List.contains_iff_mem, List.mem_cons, List.not_mem_nil, or_false] at admits
      rcases admits with rfl | rfl <;> decide
  · cases admits

/-- The constructs that have open nodes rendered, apart from those whose nodes are open
themselves, end in a word of their own. -/
theorem Construct.closing_of_openFields {construct : Construct} {options : Options} {node : Node}
    {position : Position} {source : Source} {value : Value} {place : Position}
    (held : .visit source value place ∈ construct.tasks options node position)
    {name : String} (listed : name ∈ openFields) (fields : source.fields = [name]) :
    construct ∈ [.statementList, .switchCase, .moduleDeclaration, .exportDeclaration,
      .functionDeclaration, .classDeclaration, .switchStatement, .ifStatement, .forStatement,
      .forInStatement] := by
  obtain ⟨part, inside, among⟩ := List.mem_flatMap.mp held
  have read : part.isCopy = false → name ∈ part.fields := by
    intro own
    have isIn := Part.tasks_isIn options node position own _ among
    exact isIn.2 name (fields ▸ List.mem_singleton_self name)
  have real : part.isCopy = false := by
    cases part with
    | construction =>
        cases List.mem_singleton.mp (Task.visit_mem_wanting_iff.mp among)
        cases fields
    | declaration =>
        cases List.mem_singleton.mp among
        cases fields
    | _ => rfl
  have table : ∀ part ∈ construct.parts, part.isCopy = false → ∀ name ∈ openFields,
      name ∈ part.fields → construct ∈ [.statementList, .switchCase, .moduleDeclaration,
        .exportDeclaration, .functionDeclaration, .classDeclaration, .switchStatement, .ifStatement,
        .forStatement, .forInStatement] := by
    cases construct <;> decide
  exact table part inside real name listed (read real)

section Shown

variable {options : Options} {node inner : Node} {position place : Position} {source : Source}
  {after : String}

/-- Layouts that end in a block write the end of it behind all that is written. -/
theorem Layout.shows_block {layouts : List Layout} (closing : String)
    (last : layouts.getLast? = some (.word closing)) (long : 2 ≤ closing.length)
    (each : ∀ layout ∈ layouts, layout.isStraight = true ∨
      (.visit source (.node inner) place ∈ layout.tasks → ∃ behind, layout.Shows source after behind))
    (held : .visit source (.node inner) place ∈ (joined layouts).tasks) :
    ∃ behind, (joined layouts).Shows source after behind ∧ 2 ≤ behind.length := by
  have written : ∀ layout ∈ layouts, .visit source (.node inner) place ∈ layout.tasks →
      ∃ behind, layout.Shows source after behind := by
    intro layout inside among
    rcases each layout inside with straight | shows
    · obtain ⟨behind, shown, -⟩ := Layout.shows_of_isStraight straight among after
      exact ⟨behind, shown⟩
    · exact shows among
  obtain ⟨behind, shown, sub⟩ := Layout.shows_joined last written held
  exact ⟨behind, shown, Nat.le_trans long (Text.length_le_of_sublist sub)⟩

variable (admits : source.admits inner.kind = true)
  (long : inner.kind ∉ openKinds → 2 ≤ after.length)
include admits long

/-- A clause holds no open node. -/
theorem Source.long_of_not_open (closed : ∀ name ∈ openFields, source.fields ≠ [name]) :
    2 ≤ after.length := by
  refine long fun isOpen => ?_
  obtain ⟨name, listed, fields⟩ := Source.fields_of_admits isOpen admits
  exact closed name listed fields

open Layout in
/-- What is written of the first clause of a counting loop is written without its
terminator. -/
theorem Layout.shows_loopInit {init : Value}
    (held : .visit source (.node inner) place ∈ (loopInit node init).tasks) :
    ∃ behind, (loopInit node init).Shows source after behind := by
  refine shows_shaped (fun start among => ?_) held
  split at among
  · next kind =>
      rw [if_pos kind]
      refine shows_needed (fun declarations among => ?_) among
      refine shows_shaped (fun items among => shows_separatedBy ", " ?_ among) among
      intro layout inside among
      obtain ⟨slot, listedSlot, rfl⟩ := List.mem_map.mp inside
      obtain ⟨⟨value, index⟩, _, rfl⟩ := List.mem_map.mp listedSlot
      cases List.mem_singleton.mp (visit_mem_wanting_iff.mp among)
      have closed : ∀ name ∈ openFields, (Source.declarator index).fields ≠ [name] := by
        change ∀ name ∈ openFields, ["init"] ≠ [name]
        decide
      exact ⟨_, .clause (.wanting (.visit _ _) _) (Source.long_of_not_open admits long closed)⟩
  · next kind =>
      rw [if_neg kind]
      cases List.mem_singleton.mp (visit_mem_wanting_iff.mp among)
      exact ⟨_, .clause (.wanting (.visit _ _) _)
        (Source.long_of_not_open admits long (by decide))⟩

open Layout in
theorem Construct.shows_forStatement
    (held : .visit source (.node inner) place ∈
      (Construct.forStatement.layout options node position).tasks) :
    ∃ behind, (Construct.forStatement.layout options node position).Shows source after behind ∧
      2 ≤ behind.length := by
  have start (among : .visit source (.node inner) place ∈
      (optional node "init" .empty (loopInit node)).tasks) :
      ∃ behind, (optional node "init" .empty (loopInit node)).Shows source after behind :=
    shows_optional rfl (fun _ => Layout.shows_loopInit admits long) among
  refine shows_block "\x7d\n" rfl (by decide) ?_ held
  simpa [isStraight] using Or.inr start

open Layout in
theorem Construct.shows_forInStatement
    (held : .visit source (.node inner) place ∈
      (Construct.forInStatement.layout options node position).tasks) :
    ∃ behind, (Construct.forInStatement.layout options node position).Shows source after behind ∧
      2 ≤ behind.length := by
  have left (among : .visit source (.node inner) place ∈ (Layout.clause (text node "left")).tasks) :
      ∃ behind, (Layout.clause (text node "left")).Shows source after behind := by
    obtain ⟨behind, shown, sub⟩ := shows_of_isStraight isStraight_text among after
    have closed := Source.long_of_not_open admits long (by
      rw [source_of_text among]
      decide)
    exact ⟨"", .clause shown (Nat.le_trans closed (Text.length_le_of_sublist sub))⟩
  refine shows_block "\x7d\n" rfl (by decide) ?_ held
  simpa [isStraight] using left

open Layout in
/-- What is written of an alternate has a brace behind it, or what ends a closed node. -/
theorem Layout.shows_alternate
    (held : .visit source (.node inner) place ∈ (alternate node).tasks) :
    ∃ behind, (alternate node).Shows source after behind ∧
      ("\x7d".toList.Sublist behind.toList ∨ 2 ≤ behind.length) := by
  by_cases isOpen : inner.kind ∈ openKinds
  · -- an open node there is a block, and braces are written around a block
    obtain ⟨rfl, layout_eq⟩ := alternate_of_slot held
    have block : inner.kind = "BlockStatement" := by
      have listed : openKinds.contains inner.kind = true := List.contains_iff_mem.mpr isOpen
      simpa only [Source.admits, listed, Bool.not_true, Bool.false_or, beq_iff_eq] using admits
    rw [layout_eq, if_pos block]
    refine ⟨_, .second (.first (.wanting (.visit _ _) _)), .inl ?_⟩
    rw [String.toList_append]
    exact List.sublist_append_right _ _
  · obtain ⟨behind, shown, sub⟩ := shows_of_isStraight isStraight_alternate held after
    exact ⟨behind, shown, .inr (Nat.le_trans (long isOpen) (Text.length_le_of_sublist sub))⟩

open Layout in
/-- A conditional statement ends its line behind whatever branch it writes last. -/
theorem Construct.shows_ifStatement
    (held : .visit source (.node inner) place ∈
      (Construct.ifStatement.layout options node position).tasks) :
    ∃ behind, (Construct.ifStatement.layout options node position).Shows source after behind ∧
      2 ≤ behind.length := by
  -- a brace before the end of the line is long enough, and so is what ends a closed node
  have enough {layout : Layout} {behind : String} (shown : layout.Shows source after behind)
      (some : "\x7d".toList.Sublist behind.toList ∨ 2 ≤ behind.length) :
      ∃ behind, (Layout.line layout).Shows source after behind ∧ 2 ≤ behind.length := by
    have longer : 2 ≤ (endLine behind).length := by
      rcases some with brace | long
      · have ended : "\x7d\n".toList.Sublist (endLine behind).toList := Text.endLine_sublist brace
        exact Text.length_le_of_sublist ended
      · exact Nat.le_trans long (Text.length_le_of_sublist (Text.sublist_endLine behind))
    refine ⟨_, .line shown ?_, longer⟩
    rintro rfl
    rcases some with brace | long
    · cases brace
    · exact absurd long (by decide)
  simp only [Construct.layout, joined, Layout.tasks, List.nil_append, List.append_nil,
    List.mem_append] at held
  rcases held with test | consequent | alternate
  · obtain ⟨behind, shown, sub⟩ := shows_of_isStraight isStraight_child test after
    have isClosed := Source.long_of_not_open admits long (by
      rw [source_of_child test]
      decide)
    refine enough (.second (.first shown)) (.inr ?_)
    rw [String.length_append]
    exact Nat.le_add_right_of_le (Nat.le_trans isClosed (Text.length_le_of_sublist sub))
  · obtain ⟨behind, shown, sub⟩ := shows_of_isStraight isStraight_text consequent after
    refine enough (.second (.second (.second (.first shown)))) (.inl ?_)
    rw [String.toList_append]
    refine List.sublist_append_of_sublist_right ?_
    change "\x7d".toList.Sublist ("\x7d" ++ _).toList
    rw [String.toList_append]
    exact List.sublist_append_left _ _
  · obtain ⟨behind, shown, some⟩ := Layout.shows_alternate admits long alternate
    refine enough (.second (.second (.second (.second (.second (.first shown)))))) ?_
    change "\x7d".toList.Sublist (behind ++ "").toList ∨ 2 ≤ (behind ++ "").length
    rwa [String.append_empty]

open Layout in
omit long in
/-- What an export writes of an open node owes no terminator. -/
theorem Construct.owesTerminator_export (isOpen : inner.kind ∈ openKinds)
    (held : .visit source (.node inner) place ∈ (exported node).tasks) :
    Construct.exportDeclaration.owesTerminator options node position = false := by
  have listed : openKinds.contains inner.kind = true := List.contains_iff_mem.mpr isOpen
  unfold exported at held
  split at held
  · -- specifiers are no open nodes
    refine absurd admits ?_
    unfold needed at held
    split at held
    · obtain ⟨index, rfl⟩ := source_of_statements held
      rw [Source.admits, listed]
      decide
    · cases List.mem_singleton.mp held
  · next declaration found =>
      have slot : (.visit source (.node inner) place : Task) =
          .visit (.field "declaration") declaration (.within node) := by
        rcases List.mem_append.mp (visit_mem_wanting_iff.mp held) with among | among
        · exact List.mem_singleton.mp among
        · unfold shaped at among
          split at among
          · cases among
          · cases List.mem_singleton.mp among
      cases slot
      have declares : Rule.isDeclarationKind inner.kind = true := by
        simpa only [Source.admits, listed, Bool.not_true, Bool.false_or] using admits
      unfold owesTerminator
      rw [Node.field_of_field? found]
      exact congrArg not declares

open Layout in
/-- Behind whatever a readable node writes of a child stands enough to tell whether it ends a
statement, unless the node is open. Then it owes no terminator. -/
theorem Construct.shows {construct : Construct}
    (known : Construct.ofKind? node.kind = some construct) (readable : node.Readable)
    (ordered : node.substitute? options position ≠ some .charAt)
    (held : .visit source (.node inner) place ∈ (construct.layout options node position).tasks) :
    ∃ behind, (construct.layout options node position).Shows source after behind ∧
      (node.kind ∉ openKinds ∨ construct.owesTerminator options node position = true →
        2 ≤ behind.length) := by
  by_cases looking : construct ∈ [.ifStatement, .forStatement, .forInStatement]
  · simp only [List.mem_cons, List.not_mem_nil, or_false] at looking
    rcases looking with rfl | rfl | rfl
    · obtain ⟨behind, shown, enough⟩ := Construct.shows_ifStatement admits long held
      exact ⟨behind, shown, fun _ => enough⟩
    · obtain ⟨behind, shown, enough⟩ := Construct.shows_forStatement admits long held
      exact ⟨behind, shown, fun _ => enough⟩
    · obtain ⟨behind, shown, enough⟩ := Construct.shows_forInStatement admits long held
      exact ⟨behind, shown, fun _ => enough⟩
  have straight := Construct.layout_isStraight readable ordered known looking
  obtain ⟨behind, shown, sub⟩ := Layout.shows_of_isStraight straight held after
  by_cases isOpen : inner.kind ∈ openKinds
  · obtain ⟨name, listed, fields⟩ := Source.fields_of_admits isOpen admits
    have closing := Construct.closing_of_openFields (Construct.layout_tasks .. ▸ held) listed fields
    simp only [List.mem_cons, List.not_mem_nil, or_false] at closing looking
    -- an open node need not end in a word of its own
    have asOpen (kinds : ∀ entry ∈ Construct.byKind, entry.2 = construct → entry.1 ∈ openKinds)
        (owes : construct.owesTerminator options node position = false) :
        ∃ behind, (construct.layout options node position).Shows source after behind ∧
          (node.kind ∉ openKinds ∨ construct.owesTerminator options node position = true →
            2 ≤ behind.length) := by
      refine ⟨behind, shown, ?_⟩
      rintro (closed | asked)
      · exact absurd (kinds _ (Construct.mem_byKind known) rfl) closed
      · rw [owes] at asked
        cases asked
    have asBlock {layouts : List Layout} (closing : String)
        (same : construct.layout options node position = joined layouts)
        (last : layouts.getLast? = some (.word closing)) (enough : 2 ≤ closing.length) :
        ∃ behind, (construct.layout options node position).Shows source after behind ∧
          (node.kind ∉ openKinds ∨ construct.owesTerminator options node position = true →
            2 ≤ behind.length) := by
      rw [same, isStraight_joined, List.all_eq_true] at straight
      rw [same] at held ⊢
      obtain ⟨behind, shown, ended⟩ :=
        shows_block closing last enough (fun layout inside => .inl (straight layout inside)) held
      exact ⟨behind, shown, fun _ => ended⟩
    rcases closing with rfl | rfl | rfl | rfl | rfl | rfl | rfl | closing
    · exact asOpen (by decide) rfl
    · exact asOpen (by decide) rfl
    · exact asOpen (by decide) rfl
    · exact asOpen (by decide) (Construct.owesTerminator_export admits isOpen held)
    · exact asBlock "\x7d\n" rfl rfl (by decide)
    · exact asBlock "\n\x7d\n" rfl rfl (by decide)
    · exact asBlock "\x7d\n" rfl rfl (by decide)
    · exact absurd closing looking
  · exact ⟨behind, shown, fun _ => Nat.le_trans (long isOpen) (Text.length_le_of_sublist sub)⟩

end Shown

end PhpRendering
