import PhpRendering.Proofs.Depth
import PhpRendering.Proofs.Runs
import PhpRendering.Tree.Conversion

/-!
# Substitutes that a tree asks for

A call asks for the substitute of the method that it calls, and a member access that is
no callee asks for that of the property that it reads. Nothing else asks for one, so two
tables that answer alike for the names in a tree render it alike.
-/

namespace PhpRendering

/-! ## Names of members -/

structure Node.Accesses (member : Node) (name : String) : Prop where
  kind : member.kind = "MemberExpression"
  plain : member.flag "computed" = false
  property : ∃ property, member.field "property" = .node property ∧
    property.kind = "Identifier" ∧ property.field "name" = .text name

structure Node.CallsMethod (call : Node) (name : String) : Prop where
  kind : call.kind = "CallExpression" ∨ call.kind = "NewExpression"
  callee : ∃ callee, call.field "callee" = .node callee ∧ callee.Accesses name

/-- Whether some node of a value has a property that may depend on whether the node is a
callee. Plain data is not searched. -/
inductive Value.Finds (P : Node → Bool → Prop) : Value → Bool → Prop where
  | here {node : Node} {isCallee : Bool} (found : P node isCallee) : Finds P (.node node) isCallee
  | field {node : Node} {isCallee : Bool} (name : String)
      (below : Finds P (node.field name) (name == "callee")) : Finds P (.node node) isCallee
  | item {items : List Value} {item : Value} {isCallee : Bool} (listed : item ∈ items)
      (below : Finds P item false) : Finds P (.list items) isCallee

def Value.Calls (value : Value) (name : String) : Prop :=
  value.Finds (fun node _ => node.CallsMethod name) false

/-- Whether a property of a name is read somewhere in a value, which may itself be a
callee. A callee reads no property. -/
def Value.Reads (value : Value) (name : String) (isCallee : Bool) : Prop :=
  value.Finds (fun node isCallee => isCallee = false ∧ node.Accesses name) isCallee

theorem Node.Accesses.accessedName_eq {member : Node} {name : String}
    (accesses : member.Accesses name) : member.accessedName = .ok name := by
  obtain ⟨property, held, identifier, named⟩ := accesses.property
  unfold Node.accessedName
  rw [accesses.plain, held]
  simp [identifier, named, Value.substituteName]

/-- A name that is asked for is that of the member. The empty name has no substitute. -/
theorem Node.accesses_of_accessedName {member : Node} {name : String}
    (kind : member.kind = "MemberExpression") (asked : member.accessedName = .ok name) :
    name = "" ∨ member.Accesses name := by
  unfold Node.accessedName at asked
  split at asked
  · exact .inl (Except.ok.inj asked).symm
  · next plain =>
      split at asked
      · next property held =>
          split at asked
          · next identifier =>
              unfold Value.substituteName at asked
              split at asked
              · next letters named =>
                  cases asked
                  exact .inr ⟨kind, Bool.eq_false_iff.mpr plain, property, held, identifier, named⟩
              · exact .inl (Except.ok.inj asked).symm
              · cases asked
              · exact .inl (Except.ok.inj asked).symm
              · cases asked
              · exact .inl (Except.ok.inj asked).symm
          · exact .inl (Except.ok.inj asked).symm
      · exact .inl (Except.ok.inj asked).symm

/-! ## What is found in what is rendered -/

/-- Whether what has a property in a copy has it in the original too, and never where a
node is made up for rendering. -/
structure FoundInOriginals (P : Node → Bool → Prop) : Prop where
  call : ∀ node isCallee, node.kind = "NewExpression" → P (Rule.asCall node) isCallee →
    ∀ place, P node place
  kind : ∀ node isCallee, P node isCallee →
    node.kind ∉ ["FunctionDeclaration", "Identifier", "AssignmentExpression"]
  anywhere : ∀ node, P node true → P node false

namespace Value.Finds

variable {P : Node → Bool → Prop} {node : Node} {value : Value} {isCallee : Bool}

/-- What is found in a callee would be found elsewhere. -/
theorem anywhere (originals : FoundInOriginals P) (found : value.Finds P isCallee) :
    value.Finds P false := by
  cases found with
  | here found =>
      cases isCallee with
      | false => exact .here found
      | true => exact .here (originals.anywhere _ found)
  | field name below => exact .field name below
  | item listed below => exact .item listed below

theorem of_field (originals : FoundInOriginals P) {name : String} (other : name ≠ "callee")
    (found : (node.field name).Finds P isCallee) (place : Bool) : Finds P (.node node) place := by
  refine .field name ?_
  rw [beq_eq_false_iff_ne.mpr other]
  exact found.anywhere originals

theorem of_items (originals : FoundInOriginals P) {items : List Value} {item : Value}
    (listed : value.items = .ok items) (inside : item ∈ items) (found : item.Finds P isCallee)
    (place : Bool) : value.Finds P place := by
  cases value with
  | list known =>
      cases listed
      exact .item inside (found.anywhere originals)
  | scalar scalar =>
      cases scalar with
      | text letters =>
          cases listed
          obtain ⟨letter, -, rfl⟩ := List.mem_map.mp inside
          cases found
      | null => cases listed
      | bool flag => cases listed
      | int number => cases listed
      | float number => cases listed
  | record members =>
      cases listed
      obtain ⟨entry, -, rfl⟩ := List.mem_map.mp inside
      cases found
  | foreign origin => cases listed
  | node node => cases listed

theorem of_identifier (originals : FoundInOriginals P) {origin : Origin} {name : String}
    (found : Finds P (.node ⟨origin, "Identifier", [("name", .text name)], none⟩) isCallee) :
    False := by
  cases found with
  | here found => exact originals.kind _ _ found (by simp)
  | field field below =>
      rcases Node.field_eq_null_or_mem ⟨origin, "Identifier", [("name", .text name)], none⟩ field
        with nothing | listed
      · rw [nothing] at below
        cases below
      · rw [(Prod.mk.inj (List.mem_singleton.mp listed)).2] at below
        cases below

theorem of_asDeclaration (originals : FoundInOriginals P) {function : Node} {name : String}
    (found : Finds P (.node (Rule.asDeclaration function name)) isCallee) (place : Bool) :
    Finds P (.node function) place := by
  cases found with
  | here found => exact absurd (List.mem_cons_self ..) (originals.kind _ _ found)
  | field field below =>
      by_cases named : field = "id"
      · subst named
        rw [Rule.asDeclaration_id] at below
        exact (below.of_identifier originals).elim
      · rw [Rule.asDeclaration_field named] at below
        exact .field field below

/-- What is found in an assignment that stands for a parameter is found in one of its
sides. -/
theorem of_defaultAssignment (originals : FoundInOriginals P) {function : Node}
    {target default : Value}
    (found : Finds P (.node (Rule.defaultAssignment function target default)) isCallee) :
    target.Finds P false ∨ default.Finds P false := by
  cases found with
  | here found => exact absurd (by simp [Rule.defaultAssignment]) (originals.kind _ _ found)
  | field field below =>
      have below := below.anywhere originals
      rw [Rule.defaultAssignment_field] at below
      split at below
      · cases below
      · split at below
        · exact .inl below
        · split at below
          · exact .inr below
          · cases below

end Value.Finds

/-- The callee itself is rendered by calls only. -/
theorem Construct.callee_read (construct : Construct) :
    ∀ part ∈ construct.parts, ∀ reading ∈ part.readings, reading.field = "callee" →
      reading.use = .rendered ∨ reading.use = .called → part = .call ∨ part = .construction := by
  cases construct <;> decide

/-- Whatever is found in a value that a node visits is found in the node. -/
theorem Value.Finds.of_visit {P : Node → Bool → Prop} (originals : FoundInOriginals P)
    {options : Options} {node : Node} {position place : Position} {source : Source} {value : Value}
    (visits : .visit source value place ∈ node.tasks options position)
    (found : value.Finds P place.isCallee) : Finds P (.node node) position.isCallee := by
  obtain ⟨construct, known, part, listed, among⟩ :=
    (Node.part_of_task visits).resolve_left nofun
  obtain ⟨provided, placed, marked⟩ := part.tasks_do options node position _ among
  cases provided with
  | call read =>
      subst read
      have isConstruction : construct = .construction := by
        revert listed
        cases construct <;> decide
      subst isConstruction
      cases found with
      | here found =>
          have kind : node.kind = "NewExpression" := Construct.kind_eq known (by decide)
          exact .here (originals.call _ _ kind found _)
      | field name below => exact .field name below
  | declaration read name => exact found.of_asDeclaration originals _
  | @field field shape use _ read single held direct =>
      rw [← Node.field_of_field? held] at found
      by_cases isCallee : field = "callee"
      · subst isCallee
        rcases construct.callee_read part listed _ read rfl direct with rfl | rfl
        · have isCallee : place.isCallee = true := marked.callee
          rw [isCallee] at found
          exact .field "callee" found
        · cases List.mem_singleton.mp (Task.visit_mem_wanting_iff.mp among)
      · exact found.of_field originals isCallee _
  | item read several held place rendered =>
      exact .field _ (found.of_items originals held (List.mem_of_getElem? place) _)
  | receiver read held role object =>
      rw [← Node.field_of_field? object] at found
      refine .field "callee" ?_
      rw [held]
      exact found.of_field originals (by decide) _
  | declarator read held kind declared place =>
      refine .field "init" ?_
      rw [held]
      exact .field "declarations" (found.of_items originals declared (List.mem_of_getElem? place) _)
  | method read held name =>
      refine .field "value" ?_
      rw [held]
      exact found.of_asDeclaration originals _
  | @pattern items index param target default read held place kind left right =>
      have inside : Finds P (.node param) false := by
        rcases found.of_defaultAssignment originals with inLeft | inRight
        · rw [← Node.field_of_field? left] at inLeft
          exact inLeft.of_field originals (by decide) _
        · rw [← Node.field_of_field? right] at inRight
          exact inRight.of_field originals (by decide) _
      exact .field "params" (inside.of_items originals held (List.mem_of_getElem? place) _)
  | defaulted read held place kind readDefaults given something =>
      rcases found.of_defaultAssignment originals with inParam | inDefault
      · exact .field "params" (inParam.of_items originals held (List.mem_of_getElem? place) _)
      · obtain ⟨items, listed, among⟩ := Value.getElem?_of_itemAt given something
        exact .field "defaults" (inDefault.of_items originals listed (List.mem_of_getElem? among) _)

/-! ## Calls and reads in what is rendered -/

theorem Node.callsMethod_inOriginals (name : String) :
    FoundInOriginals fun node _ => node.CallsMethod name where
  call node isCallee kind found place := ⟨.inr kind, found.callee⟩
  kind node isCallee found := by
    rcases found.kind with kind | kind <;> rw [kind] <;> decide
  anywhere node found := found

/-- A call is one wherever it stands. -/
theorem Value.Calls.of_visit {options : Options} {node : Node} {position place : Position}
    {source : Source} {value : Value} {name : String} (called : value.Calls name)
    (visits : .visit source value place ∈ node.tasks options position) :
    (Value.node node).Calls name := by
  have found : value.Finds (fun node _ => node.CallsMethod name) place.isCallee := by
    cases called with
    | here found => exact .here found
    | field name below => exact .field name below
    | item listed below => exact .item listed below
  exact (Value.Finds.of_visit (Node.callsMethod_inOriginals name) visits found).anywhere
    (Node.callsMethod_inOriginals name)

theorem Node.accesses_inOriginals (name : String) :
    FoundInOriginals fun node isCallee => isCallee = false ∧ node.Accesses name where
  call node isCallee kind found :=
    absurd ((Rule.asCall_kind node).symm.trans found.2.kind) (by decide)
  kind node isCallee found := by
    rw [found.2.kind]
    decide
  anywhere node found := nomatch found.1

section Tables

variable (options : Options) {first second : SubstituteTable} {node : Node} {position : Position}

/-- A callee has the same substitute in two tables that answer alike for its name. -/
theorem Rule.methodSubstitute?_congr
    (alike : ∀ name, node.Accesses name → first.method? name = second.method? name) :
    Rule.methodSubstitute? { options with substitutes := first } node =
      Rule.methodSubstitute? { options with substitutes := second } node := by
  unfold Rule.methodSubstitute?
  split
  · next kind =>
      cases asked : node.accessedName with
      | error crash => rfl
      | ok name =>
          rcases node.accesses_of_accessedName kind asked with rfl | accesses
          · rfl
          · exact congrArg Except.ok (alike name accesses)
  · rfl

/-- A member access has the same substitute in two tables that answer alike for its name,
unless it is a callee. -/
theorem Rule.propertySubstitute?_congr (kind : node.kind = "MemberExpression")
    (alike : ∀ name, position.isCallee = false → node.Accesses name →
      first.property? name = second.property? name) :
    Rule.propertySubstitute? { options with substitutes := first } node position =
      Rule.propertySubstitute? { options with substitutes := second } node position := by
  unfold Rule.propertySubstitute?
  split
  · rfl
  · next other =>
      have noCallee : position.isCallee = false := by
        revert other
        cases position.isCallee <;> simp
      cases asked : node.accessedName with
      | error crash => rfl
      | ok name =>
          rcases node.accesses_of_accessedName kind asked with rfl | accesses
          · rfl
          · cases position.checkParent with
            | error crash => rfl
            | ok _ =>
                change (if position.isTarget then _ else _) = (if position.isTarget then _ else _)
                split
                · rfl
                · exact congrArg Except.ok (alike name noCallee accesses)

variable (calls : ∀ name, (Value.node node).Calls name → first.method? name = second.method? name)
include calls

/-- A call has the same substitute in two tables that answer alike for the calls of its
tree. -/
theorem Node.methodSubstitute?_congr
    (kind : node.kind = "CallExpression") {callee : Node} (held : node.field "callee" = .node callee) :
    Rule.methodSubstitute? { options with substitutes := first } callee =
      Rule.methodSubstitute? { options with substitutes := second } callee :=
  Rule.methodSubstitute?_congr options fun name accesses =>
    calls name (.here ⟨.inl kind, callee, held, accesses⟩)

variable (reads : ∀ name, (Value.node node).Reads name position.isCallee →
  first.property? name = second.property? name)
include reads

/-- A node is laid out alike with two tables that answer alike for its tree. -/
theorem Node.layout_substitutes_congr :
    node.layout { options with substitutes := first } position =
        node.layout { options with substitutes := second } position ∧
      node.owesTerminator { options with substitutes := first } position =
        node.owesTerminator { options with substitutes := second } position := by
  unfold Node.layout Node.owesTerminator
  cases known : Construct.ofKind? node.kind with
  | none => exact ⟨rfl, rfl⟩
  | some construct =>
      cases construct with
      | call =>
          have kind : node.kind = "CallExpression" := Construct.kind_eq known (by decide)
          have asked (callee : Node) (held : node.field "callee" = .node callee) :=
            Node.methodSubstitute?_congr options calls kind held
          constructor
          · refine Layout.needed_congr fun value found => ?_
            cases value with
            | node callee =>
                have held := Node.field_of_field? found
                simp only [Layout.shaped, Value.asNode, asked callee held]
            | _ => rfl
          · simp only [Construct.owesTerminator]
            cases held : node.field "callee" with
            | node callee => simp only [Value.node?, Option.map_some, asked callee held]
            | _ => rfl
      | member =>
          have kind : node.kind = "MemberExpression" := Construct.kind_eq known (by decide)
          refine ⟨?_, rfl⟩
          have asked := Rule.propertySubstitute?_congr options kind
            fun name noCallee accesses => reads name (.here ⟨noCallee, accesses⟩)
          simp only [Construct.layout, Layout.member, asked]
      | _ => exact ⟨rfl, rfl⟩

end Tables

/-! ## Trees with two tables -/

/-- Two tables that answer alike for the names that a tree calls and reads render it
alike: the same text or the same failure after the same events. -/
theorem render_substitutes_congr (options : Options) {first second : SubstituteTable} {tree : Value}
    {position : Position}
    (calls : ∀ name, tree.Calls name → first.method? name = second.method? name)
    (reads : ∀ name, tree.Reads name position.isCallee →
      first.property? name = second.property? name) :
    render { options with substitutes := first } tree position =
      render { options with substitutes := second } tree position := by
  cases shape : tree.node? with
  | none =>
      rw [render_of_node?_eq_none _ shape, render_of_node?_eq_none _ shape]
  | some node =>
      cases tree <;> cases shape
      induction node, position using Node.visit_induction { options with substitutes := first } with
      | step node position ih =>
          obtain ⟨layout, owes⟩ := Node.layout_substitutes_congr options calls reads
          rw [render_eq, render_eq, renderNode, renderNode, ← layout, ← owes]
          unfold Layout.closed
          rw [Layout.write_congr fun source value place visits => ?_]
          rw [Node.layout_tasks] at visits
          cases value with
          | node child =>
              refine ih source child place visits (fun name called => ?_) fun name read => ?_
              · exact calls name (called.of_visit visits)
              · exact reads name (read.of_visit (Node.accesses_inOriginals name) visits)
          | _ =>
              rw [render_of_node?_eq_none _ rfl, render_of_node?_eq_none _ rfl]

/-! ## A check for names -/

mutual

def Value.checkPlaces (check : Node → Bool → Bool) : Value → Bool → Bool
  | .node node, isCallee => check node isCallee && node.checkFieldPlaces check
  | .list items, _ => itemsCheckPlaces check items
  | _, _ => true

def Node.checkFieldPlaces (check : Node → Bool → Bool) : Node → Bool
  | ⟨_, _, fields, _⟩ => membersCheckPlaces check fields

def itemsCheckPlaces (check : Node → Bool → Bool) : List Value → Bool
  | [] => true
  | item :: rest => item.checkPlaces check false && itemsCheckPlaces check rest

def membersCheckPlaces (check : Node → Bool → Bool) : List (String × Value) → Bool
  | [] => true
  | (name, value) :: rest =>
      value.checkPlaces check (name == "callee") && membersCheckPlaces check rest

end

section Check

variable {check : Node → Bool → Bool}

theorem checkPlaces_of_items {items : List Value} (checked : itemsCheckPlaces check items = true) :
    ∀ item ∈ items, item.checkPlaces check false = true := by
  induction items with
  | nil => exact List.forall_mem_nil _
  | cons item rest ih =>
      obtain ⟨first, later⟩ := Bool.and_eq_true_iff.mp checked
      exact List.forall_mem_cons.mpr ⟨first, ih later⟩

theorem checkPlaces_of_members {members : List (String × Value)}
    (checked : membersCheckPlaces check members = true) (name : String) :
    ((members.lookup name).getD .null).checkPlaces check (name == "callee") = true := by
  induction members with
  | nil => rfl
  | cons entry rest ih =>
      obtain ⟨first, later⟩ := Bool.and_eq_true_iff.mp checked
      rw [List.lookup_cons]
      split
      · next same =>
          rw [beq_iff_eq.mp same]
          exact first
      · exact ih later

/-- Whatever is found in a value passed a check that succeeds for all its nodes. -/
theorem Value.Finds.checked {P : Node → Bool → Prop} {value : Value} {isCallee : Bool}
    (found : value.Finds P isCallee) (checked : value.checkPlaces check isCallee = true) :
    ∃ node isCallee, P node isCallee ∧ check node isCallee = true := by
  induction found with
  | here found => exact ⟨_, _, found, (Bool.and_eq_true_iff.mp checked).1⟩
  | @field node isCallee name below ih =>
      obtain ⟨origin, kind, fields, location⟩ := node
      exact ih (checkPlaces_of_members (Bool.and_eq_true_iff.mp checked).2 name)
  | item listed below ih => exact ih (checkPlaces_of_items checked _ listed)

end Check

def Node.propertyText? (member : Node) : Option String :=
  match member.field "property" with
  | .node property => (property.field "name").text?
  | _ => none

theorem Node.Accesses.propertyText?_eq {member : Node} {name : String}
    (accesses : member.Accesses name) : member.propertyText? = some name := by
  obtain ⟨property, held, -, named⟩ := accesses.property
  simp only [Node.propertyText?, held, named, Value.text?]

/-- The methods that are called in a value are among those of a list. -/
theorem Value.calls_mem {value : Value} {names : List String} {name : String}
    (called : value.Calls name)
    (checked : value.checkPlaces (fun node _ =>
      match node.field "callee" with
      | .node callee => callee.propertyText?.all names.contains
      | _ => true) false = true) : name ∈ names := by
  obtain ⟨call, isCallee, ⟨-, callee, held, accesses⟩, fine⟩ := called.checked checked
  simpa only [held, accesses.propertyText?_eq, Option.all_some, List.contains_iff_mem] using fine

/-- The properties that are read in a value are among those of a list. -/
theorem Value.reads_mem {value : Value} {names : List String} {name : String}
    {isCallee : Bool} (read : value.Reads name isCallee)
    (checked : value.checkPlaces (fun node isCallee =>
      isCallee || node.propertyText?.all names.contains) isCallee = true) : name ∈ names := by
  obtain ⟨member, isCallee, ⟨other, accesses⟩, fine⟩ := read.checked checked
  simpa only [other, accesses.propertyText?_eq, Bool.false_or, Option.all_some,
    List.contains_iff_mem] using fine

/-! ## Registering -/

namespace SubstituteTable

theorem find?_setEntry_of_ne {name other : String} (different : other ≠ name)
    (substitute : Substitute) (entries : List (String × Substitute)) :
    find? (setEntry name substitute entries) other = find? entries other := by
  have differs : (other == name) = false := beq_eq_false_iff_ne.mpr different
  unfold find?
  congr 1
  induction entries with
  | nil => simp only [setEntry, List.lookup_cons, differs]
  | cons entry rest ih =>
      obtain ⟨known, old⟩ := entry
      by_cases same : known = name
      · subst same
        simp only [setEntry, if_true, List.lookup_cons, differs]
      · simp only [setEntry, if_neg same, List.lookup_cons, ih]

end SubstituteTable

/-- Substitutes act on the names that they are registered for only, and those of methods
and of properties do not meet. Two tables that answer alike for the methods that a tree
calls and for the properties that it reads give the same text, or the same failure, after
the same diagnostics and entries. So a substitute for a method changes nothing where that
method is not called, and one for a property nothing where that property is not read. -/
theorem substitutes_act_by_name (options : Options) (tree : Value) (position : Position) :
    (∀ first second : SubstituteTable,
      (∀ name, tree.Calls name → first.method? name = second.method? name) →
      (∀ name, tree.Reads name position.isCallee →
        first.property? name = second.property? name) →
      render { options with substitutes := first } tree position =
        render { options with substitutes := second } tree position) ∧
    ∀ (table : SubstituteTable) (name : String) (substitute : Substitute),
      (¬ tree.Calls name →
        render { options with substitutes := table.register name substitute } tree position =
          render { options with substitutes := table } tree position) ∧
      (¬ tree.Reads name position.isCallee →
        render { options with substitutes := table.registerProperty name substitute } tree
            position =
          render { options with substitutes := table } tree position) := by
  refine ⟨fun first second calls reads => render_substitutes_congr options calls reads,
    fun table name substitute => ⟨fun uncalled => ?_, fun unread => ?_⟩⟩
  · refine render_substitutes_congr options (fun other called => ?_) fun _ _ => rfl
    have different : other ≠ name := fun same => uncalled (same ▸ called)
    exact SubstituteTable.find?_setEntry_of_ne different substitute table.methods
  · refine render_substitutes_congr options (fun _ _ => rfl) fun other read => ?_
    have different : other ≠ name := fun same => unread (same ▸ read)
    exact SubstituteTable.find?_setEntry_of_ne different substitute table.properties

/-- The tree of `x.length(y.trim)`. -/
def crossedSource : Json :=
  let identifier (name : String) : Json :=
    .object [("type", .text "Identifier"), ("name", .text name)]
  let access (object property : String) : Json :=
    .object [("type", .text "MemberExpression"), ("object", identifier object),
      ("property", identifier property)]
  .object [("type", .text "CallExpression"), ("callee", access "x" "length"),
    ("arguments", .array [access "y" "trim"])]

/-- A substitute for calls of `trim` and one for reads of `length` change nothing where
`trim` is read and `length` is called. -/
theorem crossedSource_rendered_alike :
    let table := SubstituteTable.builtIn.register "trim" (.constant "t")
    let other := table.registerProperty "length" (.constant "l")
    render { substitutes := .builtIn } (.ofJson .data 0 crossedSource) {} =
        render { substitutes := other } (.ofJson .data 0 crossedSource) {} ∧
      (render {} (.ofJson .data 0 crossedSource) {}).outcome = .ok "$x->length($y->trim)" := by
  refine ⟨(substitutes_act_by_name {} (.ofJson .data 0 crossedSource) {}).1 .builtIn _
    (fun name called => ?_) (fun name read => ?_), rfl⟩
  · have known : name ∈ ["length"] := Value.calls_mem called (by decide)
    rw [List.mem_singleton.mp known]
    rfl
  · have known : name ∈ ["trim"] := Value.reads_mem read (by decide)
    rw [List.mem_singleton.mp known]
    rfl

end PhpRendering
