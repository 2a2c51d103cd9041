import PhpRendering.Proofs.Inversion
import PhpRendering.Proofs.Terminator

/-!
# Members that are written

The left side of an assignment, the operand of an update and the left side of a loop over
properties are written, whatever else a member stands for is read. The substitute of a
property takes the place of reads. A member knows that it is written from the place where its
parent has it rendered: assignments and updates mark that place, and loops over properties
do not.
-/

namespace PhpRendering

/-- Whether a node writes to what it has rendered from a source. A node that is both sides of
an assignment is written wherever it is rendered. -/
def Node.WritesTo (parent : Node) (source : Source) : Prop :=
  parent.kind = "AssignmentExpression" ∧ (source = .field "left" ∨ source = .field "right" ∧
      (parent.occurrence "left").isSame (parent.occurrence "right") = true) ∨
    parent.kind = "UpdateExpression" ∧ source = .field "argument" ∨
    parent.kind = "ForInStatement" ∧ source = .field "left"

/-! ## Marked members -/

section Visit

variable {options : Options} {node member : Node} {position place : Position} {source : Source}
  {value : Value} {construct : Construct}

/-- A field that is rendered has one place. -/
theorem Task.visit_of_needed {field : String} {given : Position}
    (visits : .visit source value place ∈ Task.needed node field (Task.child field given)) :
    source = .field field ∧ place = given ∧ node.field? field = some value := by
  have each : ∀ task ∈ Task.needed node field (Task.child field given),
      ∀ source value place, task = .visit source value place →
        source = .field field ∧ place = given ∧ node.field? field = some value := by
    refine forall_needed
      (fun _ source value place same => absurd same (stop_ne_visit _ source value place))
      fun value found => List.forall_mem_singleton.mpr ?_
    rintro _ _ _ ⟨⟩
    exact ⟨rfl, rfl, found⟩
  exact each _ visits source value place rfl

/-- An update has its operand rendered and nothing else. -/
theorem Node.visit_of_update (known : Construct.ofKind? node.kind = some .update)
    (visits : .visit source value place ∈ node.tasks options position) :
    source = .field "argument" ∧ place = .within node := by
  rw [Node.tasks_eq known] at visits
  obtain ⟨part, listed, among⟩ := List.mem_flatMap.mp visits
  rcases List.mem_cons.mp listed with rfl | listed
  · obtain ⟨rfl, rfl, -⟩ := Task.visit_of_needed among
    exact ⟨rfl, rfl⟩
  · rw [List.mem_singleton.mp listed] at among
    have silent : ∀ task ∈ (Part.mark "operator").tasks options node position,
        task ≠ .visit source value place :=
      Task.forall_needed (fun _ => nofun) fun mark _ =>
        Task.forall_shaped (fun _ _ => nofun) fun _ _ => List.forall_mem_nil _
    exact absurd rfl (silent _ among)

/-- An operation has its two sides rendered, each in the place where it is found. -/
theorem Node.visit_of_binary (known : Construct.ofKind? node.kind = some .binary)
    (visits : .visit source value place ∈ node.tasks options position) :
    ∃ field, (field = "left" ∨ field = "right") ∧ source = .field field ∧
      place = .of node (node.occurrence field) ∧ node.field? field = some value := by
  rw [Node.tasks_eq known] at visits
  obtain ⟨part, listed, among⟩ := List.mem_flatMap.mp visits
  rcases List.mem_cons.mp listed with rfl | listed
  · exact ⟨"left", .inl rfl, Task.visit_of_needed among⟩
  rcases List.mem_cons.mp listed with rfl | listed
  · exact ⟨"right", .inr rfl, Task.visit_of_needed among⟩
  · rw [List.mem_singleton.mp listed] at among
    have silent : ∀ task ∈ (Part.present "operator").tasks options node position,
        task ≠ .visit source value place :=
      Task.forall_needed (fun _ => nofun) fun _ _ => List.forall_mem_nil _
    exact absurd rfl (silent _ among)

/-- What is not an operation marks no left side. -/
theorem Construct.marksLeft_eq_false (node : Node) {construct : Construct}
    (other : construct ≠ .binary) : ∀ part ∈ construct.parts, part.marksLeft node = false := by
  cases construct with
  | binary => exact absurd rfl other
  | _ => simp [Construct.parts, Part.marksLeft]

/-- Assignments and updates mark what they write to, if no other construct marks a left
side. -/
theorem Node.isTarget_iff (known : Construct.ofKind? node.kind = some construct)
    (visits : .visit source (.node member) place ∈ node.tasks options position)
    (unmarked : construct ≠ .binary → place.isTarget = (node.kind == "UpdateExpression")) :
    place.isTarget = true ↔ node.WritesTo source ∧ node.kind ≠ "ForInStatement" := by
  by_cases operation : construct = .binary
  · subst operation
    have noUpdate : node.kind ≠ "UpdateExpression" := by
      intro kind
      rw [kind] at known
      exact absurd known (by decide)
    have noLoop : node.kind ≠ "ForInStatement" := by
      intro kind
      rw [kind] at known
      exact absurd known (by decide)
    obtain ⟨field, side, rfl, rfl, found⟩ := Node.visit_of_binary known visits
    have marked := (Position.isMarked_of node (node.occurrence field)).target
    rw [beq_eq_false_iff_ne.mpr noUpdate, Bool.false_or] at marked
    rw [marked, Bool.and_eq_true, beq_iff_eq]
    rcases side with rfl | rfl
    · have same : (node.occurrence "left").isSame (node.occurrence "left") = true := by
        simp [Occurrence.isSame, Node.occurrence, Node.field_of_field? found]
      simp [Node.WritesTo, noUpdate, noLoop, same]
    · simp [Node.WritesTo, noUpdate, noLoop, and_comm]
  · rw [unmarked operation, beq_iff_eq]
    constructor
    · intro kind
      have update : Construct.ofKind? node.kind = some .update := by
        rw [kind]
        rfl
      refine ⟨.inr (.inl ⟨kind, (Node.visit_of_update update visits).1⟩), ?_⟩
      rw [kind]
      decide
    · rintro ⟨⟨kind, -⟩ | ⟨kind, -⟩ | ⟨kind, -⟩, noLoop⟩
      · rw [kind] at known
        exact absurd (Option.some.inj known).symm operation
      · exact kind
      · exact absurd kind noLoop

/-- A callee is read by calls, or by the substitute of an access. -/
theorem Construct.callee_use (construct : Construct) :
    ∀ part ∈ construct.parts, ∀ reading ∈ part.readings, reading.field = "callee" →
      reading.use = .called ∨ construct = .member := by
  cases construct <;> decide

/-- The receiver of a call is that of a member access. -/
theorem Use.kind_of_called {callee : Node} (role : .receiver ∈ Use.called.roles callee) :
    callee.kind = "MemberExpression" := by
  by_contra other
  simp [Use.roles, Role.ofKind, other] at role

/-- The marks of the place in which a node has a member access rendered. An access has no
callee of its own. -/
theorem Node.visit_marked
    (visits : .visit source (.node member) place ∈ node.tasks options position)
    (kind : member.kind = "MemberExpression")
    (plain : node.kind = "MemberExpression" → node.field "callee" = .null) :
    place.parentIsUsable = true ∧ (place.isCallee = true ↔ source = .field "callee") ∧
      (place.isTarget = true ↔ node.WritesTo source ∧ node.kind ≠ "ForInStatement") := by
  obtain ⟨construct, known, part, listed, among⟩ :=
    (Node.part_of_task visits).resolve_left nofun
  obtain ⟨provided, placed, marked⟩ := part.tasks_do options node position _ among
  have targets := Node.isTarget_iff known visits
  have noUpdate (other : source ≠ .field "argument") :
      (node.kind == "UpdateExpression") = false := by
    refine beq_eq_false_iff_ne.mpr fun kind => other ?_
    have update : Construct.ofKind? node.kind = some .update := by
      rw [kind]
      rfl
    exact (Node.visit_of_update update visits).1
  cases provided with
  | call read =>
      exact absurd (show "CallExpression" = "MemberExpression" from kind) (by decide)
  | declaration read name =>
      exact absurd (show "FunctionDeclaration" = "MemberExpression" from kind) (by decide)
  | @field field shape use _ read single held direct =>
      refine ⟨marked.usable, ?_, targets fun other => ?_⟩
      · rw [marked.callee, Source.field.injEq]
        constructor
        · intro marks
          cases part with
          | call => exact beq_iff_eq.mp marks
          | _ => cases marks
        · rintro rfl
          rcases construct.callee_read part listed _ read rfl direct with rfl | rfl
          · rfl
          · cases List.mem_singleton.mp (Task.visit_mem_wanting_iff.mp among)
      · rw [marked.target, Construct.marksLeft_eq_false node other part listed, Bool.false_and,
          Bool.or_false]
  | item read several held index rendered =>
      refine ⟨marked.usable, ?_, targets fun _ => ?_⟩
      · rw [marked.callee]
        simp
      · rw [marked.target, Bool.false_and, Bool.or_false]
  | @receiver use callee _ read held role object =>
      obtain ⟨called, given, rfl⟩ := placed
      cases held.symm.trans given
      have access : callee.kind = "MemberExpression" := by
        rcases construct.callee_use part listed _ read rfl with rfl | rfl
        · exact Use.kind_of_called role
        · have isAccess : node.kind = "MemberExpression" := Construct.kind_eq known (by decide)
          rw [plain isAccess] at held
          cases held
      refine ⟨rfl, by simp [Position.within], targets fun _ => ?_⟩
      rw [noUpdate (by rintro ⟨⟩)]
      simp [Position.within, access]
  | declarator read held start declared index =>
      obtain ⟨start, given, declaration, rfl⟩ := placed
      refine ⟨rfl, by simp [Position.within], targets fun _ => ?_⟩
      rw [noUpdate (by rintro ⟨⟩)]
      simp [Position.within, declaration]
  | method read held name =>
      exact absurd (show "FunctionDeclaration" = "MemberExpression" from kind) (by decide)
  | pattern read held index pattern left right =>
      exact absurd (show "AssignmentExpression" = "MemberExpression" from kind) (by decide)
  | defaulted read held index other readDefaults given something =>
      exact absurd (show "AssignmentExpression" = "MemberExpression" from kind) (by decide)

end Visit

/-! ## The two texts of a member -/

/-- Whether a text is that of an access: the object, the connective and the name. -/
def Node.IsAccessedAs (options : Options) (member : Node) (place : Position) (object : Value)
    (name text : String) : Prop :=
  ∃ objectText,
    (render options object (Rule.objectPosition member object)).outcome = .ok objectText ∧
    text = objectText ++
      (place.connective.getD (Connective.between object (member.field "property"))).text ++ name

/-- Whether a text is what a substitute makes of the object of a read. A substitute that does
not ask for the object does not have it rendered. -/
def Node.IsReplacedBy (options : Options) (member : Node) (object : Value)
    (substitute : Substitute) (text : String) : Prop :=
  ∃ objectText,
    (substitute.takesObject = true →
      (render options object (.within member)).outcome = .ok objectText) ∧
    text = substitute.readText objectText

section Text

variable {options : Options} {member : Node} {place : Position} {object : Value} {name : String}

/-- An access for which nothing is asked is written as one. -/
theorem Node.Accesses.isAccessedAs_iff (accesses : member.Accesses name)
    (held : member.field? "object" = some object)
    (nothing : Rule.propertySubstitute? options member place = .ok none) {text : String} :
    (render options (.node member) place).outcome = .ok text ↔
      member.IsAccessedAs options place object name text := by
  obtain ⟨property, found, identifier, named⟩ := accesses.property
  have known : Construct.ofKind? member.kind = some .member := by
    rw [accesses.kind]
    rfl
  have fine : MissNothing (member.tasks options place) := by
    rw [Node.tasks_eq known]
    simp only [Construct.tasks, Construct.parts, List.flatMap_cons, List.flatMap_nil,
      List.append_nil, Part.tasks, Task.needed, Node.require, held, Node.field?_node found,
      Task.shaped, nothing]
    exact .append (.child _ _) (.child _ _)
  have layout : member.layout options place =
      Layout.access member place object (.node property) := by
    rw [Node.layout_eq known]
    simp only [Construct.layout, Layout.member, Layout.needed, Node.require, held,
      Node.field?_node found, Layout.shaped, nothing]
  have owes : member.owesTerminator options place = false := by
    rw [Node.owesTerminator_eq known]
    rfl
  rw [render_ok_iff fine, layout, owes]
  simp only [Layout.access, accesses.plain, Bool.false_eq_true, if_false, Layout.writes_next_iff,
    Layout.writes_visit_iff, Layout.writes_word_iff,
    Node.render_memberName options identifier named, Except.ok.injEq, Fragment.terminated,
    Bool.false_and, Node.IsAccessedAs, found]
  constructor
  · rintro ⟨_, ⟨objectText, _, rendered, ⟨_, _, rfl, rfl, rfl⟩, rfl⟩, rfl⟩
    exact ⟨objectText, rendered, (String.append_assoc ..).symm⟩
  · rintro ⟨objectText, rendered, rfl⟩
    exact ⟨_, ⟨objectText, _, rendered, ⟨_, _, rfl, rfl, rfl⟩, rfl⟩, String.append_assoc ..⟩

/-- A read that has a substitute is what the substitute makes of its object. -/
theorem Node.IsAccess.isReplacedBy_iff (isAccess : member.IsAccess) {property : Value}
    (held : member.field? "object" = some object) (found : member.field? "property" = some property)
    {substitute : Substitute}
    (asked : Rule.propertySubstitute? options member place = .ok (some substitute))
    {text : String} :
    (render options (.node member) place).outcome = .ok text ↔
      member.IsReplacedBy options object substitute text := by
  have layout : Construct.member.layout options member place =
      Layout.substituted member substitute := by
    simp only [Construct.layout, Layout.member, Layout.needed, Node.require, held, found,
      Layout.shaped, asked]
  -- A substitute that does not ask for the object has one text, whatever the object is.
  have settled (takes : substitute.takesObject = false)
      (outcome : (render options (.node member) place).outcome = .ok (substitute.readText "")) :
      (render options (.node member) place).outcome = .ok text ↔
        member.IsReplacedBy options object substitute text := by
    have same (other : String) : substitute.readText other = substitute.readText "" := by
      cases substitute <;> first | rfl | cases takes
    rw [outcome, Except.ok.injEq]
    constructor
    · rintro rfl
      exact ⟨"", fun needed => absurd (takes.symm.trans needed) Bool.false_ne_true, rfl⟩
    · rintro ⟨other, -, rfl⟩
      exact (same other).symm
  have lacking (takes : substitute.takesReceiver = true) :
      (render options (.node member) place).outcome = .ok "" := by
    refine render_of_lacking isAccess.known (member.missing "callee") ?_
    rw [layout]
    exact Layout.write_substituted_of_noCallee (Node.field?_eq_none_iff.mpr isAccess.noCallee)
      (Node.optionalItems_of_null isAccess.noArguments) takes
  cases substitute with
  | receiverFirst function => exact settled rfl (lacking rfl)
  | receiverLast function => exact settled rfl (lacking rfl)
  | charAt => exact settled rfl (lacking rfl)
  | constant known =>
      have writes : (Construct.member.layout options member place).Writes (render options) known := by
        rw [layout]
        exact .word known
      exact settled rfl (render_of_construct_writes isAccess.known writes)
  | propertyFunction function =>
      have fine : MissNothing (member.tasks options place) := by
        rw [← Node.layout_tasks, Node.layout_eq isAccess.known, layout]
        simp only [Layout.substituted, Layout.joined, Layout.receiver, Layout.needed, Node.require,
          held, Layout.tasks, List.nil_append, List.append_nil]
        exact .visit _ _ _
      rw [render_ok_iff fine, Node.layout_eq isAccess.known, layout,
        Node.owesTerminator_eq isAccess.known]
      simp [Layout.substituted, Layout.receiver, held, Construct.owesTerminator,
        Fragment.terminated, Node.IsReplacedBy, Substitute.takesObject, Substitute.readText,
        Rule.functionCall, Rule.commaSeparated, String.append_assoc]

end Text

/-! ## Reads and writes -/

/-- What a member access asks for: nothing where it is called or known to be written. -/
theorem Node.Accesses.asked_eq (options : Options) {member : Node} {name : String}
    (accesses : member.Accesses name) {place : Position} (usable : place.parentIsUsable = true) :
    Rule.propertySubstitute? options member place =
      .ok (if place.isCallee || place.isTarget then none
        else options.substitutes.property? name) := by
  cases called : place.isCallee with
  | true => simp [Rule.propertySubstitute?, called]
  | false =>
      cases written : place.isTarget with
      | false => exact accesses.propertySubstitute?_eq options called usable written
      | true =>
          unfold Rule.propertySubstitute? Position.checkParent
          rw [called, accesses.plain, usable, written]
          rfl

/-- A written member is the object with its member, except in a loop over properties: there, and
wherever a member is read and not called, the substitute of the property takes its place. A
member without a substitute is the object with its member wherever it stands. An access has
no callee of its own. -/
theorem members_are_rendered_by_place (options : Options) {parent member : Node}
    {position place : Position} {source : Source}
    (visits : .visit source (.node member) place ∈ parent.tasks options position)
    (plain : parent.kind = "MemberExpression" → parent.IsAccess) (isAccess : member.IsAccess)
    {name : String} (accesses : member.Accesses name) {object : Value}
    (held : member.field? "object" = some object) :
    (parent.WritesTo source → parent.kind ≠ "ForInStatement" → ∀ text,
      (render options (.node member) place).outcome = .ok text ↔
        member.IsAccessedAs options place object name text) ∧
    (source = .field "callee" ∨ options.substitutes.property? name = none → ∀ text,
      (render options (.node member) place).outcome = .ok text ↔
        member.IsAccessedAs options place object name text) ∧
    ∀ substitute, options.substitutes.property? name = some substitute →
      ¬ parent.WritesTo source ∨ parent.kind = "ForInStatement" → source ≠ .field "callee" →
      ∀ text, (render options (.node member) place).outcome = .ok text ↔
        member.IsReplacedBy options object substitute text := by
  obtain ⟨usable, callee, target⟩ := Node.visit_marked visits accesses.kind
    fun kind => (plain kind).noCallee
  obtain ⟨property, found, -, -⟩ := accesses.property
  have asked := accesses.asked_eq options usable
  refine ⟨fun writes noLoop text => ?_, fun calm text => ?_, fun substitute known read other text => ?_⟩
  · refine accesses.isAccessedAs_iff held ?_
    rw [asked, target.mpr ⟨writes, noLoop⟩, Bool.or_true, if_pos rfl]
  · refine accesses.isAccessedAs_iff held ?_
    rw [asked]
    rcases calm with called | unknown
    · rw [callee.mpr called, Bool.true_or, if_pos rfl]
    · rw [unknown, ite_self]
  · refine isAccess.isReplacedBy_iff held (Node.field?_node found) ?_
    have uncalled : place.isCallee = false := Bool.eq_false_iff.mpr (mt callee.mp other)
    have unmarked : place.isTarget = false := by
      refine Bool.eq_false_iff.mpr fun marked => ?_
      obtain ⟨writes, noLoop⟩ := target.mp marked
      rcases read with reads | loop
      · exact reads writes
      · exact noLoop loop
    rw [asked, uncalled, unmarked, known]
    rfl

def lengthAccess (side : String) : Node :=
  { Chain.accessNode (variableNode "x") "length" with origin := ⟨0, [.member side]⟩ }

def lengthAssignment : Node :=
  ⟨⟨0, []⟩, "AssignmentExpression", [("operator", .text "="),
    ("left", .node (lengthAccess "left")), ("right", .node (lengthAccess "right"))], none⟩

def lengthLoop : Node :=
  let body : Node := ⟨⟨0, []⟩, "BlockStatement", [("body", .list [])], none⟩
  ⟨⟨0, []⟩, "ForInStatement", [("left", .node (lengthAccess "left")),
    ("right", .node (variableNode "o")), ("body", .node body)], none⟩

/-- The built-in substitute for `length` takes the place of the right side of the assignment
and not of the left one, and it takes the place of what the loop writes to. -/
theorem lengthAccess_by_place :
    (render {} (.node (lengthAccess "left")) (.leftOf lengthAssignment)).outcome =
        .ok "$x->length" ∧
      (render {} (.node (lengthAccess "right")) (.within lengthAssignment)).outcome =
        .ok "count($x)" ∧
      (render {} (.node (lengthAccess "left")) (.within lengthLoop)).outcome = .ok "count($x)" := by
  have isAccess (side : String) : (lengthAccess side).IsAccess := ⟨rfl, rfl, rfl, rfl⟩
  have accesses (side : String) : (lengthAccess side).Accesses "length" :=
    ⟨rfl, rfl, _, rfl, rfl, rfl⟩
  have left : .visit (.field "left") (.node (lengthAccess "left")) (.leftOf lengthAssignment) ∈
      lengthAssignment.tasks {} {} := .head _
  have right : .visit (.field "right") (.node (lengthAccess "right")) (.within lengthAssignment) ∈
      lengthAssignment.tasks {} {} := .tail _ (.head _)
  have loop : .visit (.field "left") (.node (lengthAccess "left")) (.within lengthLoop) ∈
      lengthLoop.tasks {} {} := .tail _ (.head _)
  have held (side : String) :
      (lengthAccess side).field? "object" = some (.node (variableNode "x")) := rfl
  refine ⟨?_, ?_, ?_⟩
  · refine ((members_are_rendered_by_place {} left nofun (isAccess _) (accesses _) (held _)).1
      (.inl ⟨rfl, .inl rfl⟩) (by decide) _).mpr ⟨"$x", rfl, rfl⟩
  · have apart : (lengthAssignment.occurrence "left").isSame
        (lengthAssignment.occurrence "right") = false := by decide
    have read : ¬ lengthAssignment.WritesTo (.field "right") := by
      simp [Node.WritesTo, apart]
    exact ((members_are_rendered_by_place {} right nofun (isAccess _) (accesses _) (held _)).2.2
      (.propertyFunction "count") rfl (.inl read) (by decide) _).mpr ⟨"$x", fun _ => rfl, rfl⟩
  · exact ((members_are_rendered_by_place {} loop nofun (isAccess _) (accesses _) (held _)).2.2
      (.propertyFunction "count") rfl (.inr rfl) (by decide) _).mpr ⟨"$x", fun _ => rfl, rfl⟩

end PhpRendering
