import PhpRendering.Proofs.Dropped
import PhpRendering.Proofs.Written

/-!
# The policy for malformed nodes

A node that lacks a field that its rule always requires leaves no text, and the last
diagnostic names the node, or the node below it for which the rule read the field. The
rules of constructions and of function expressions do not follow this policy, because
they leave it to a copy of another kind.
-/

namespace PhpRendering

/-! ## Required fields -/

/-- The fields that a part of a construct requires whatever else a node holds. Identifiers
and imported bindings, whose names may be found in other places, are left aside. -/
def Part.requiredFields : Part → List String
  | .present field => [field]
  | .mark field => [field]
  | .child field => [field]
  | .text field => [field]
  | .side field => [field]
  | .children field => [field]
  | .statements field => [field]
  | .call => ["callee"]
  | .construction => ["callee"]
  | .access => ["object", "property"]
  | .declaration => ["body"]
  | .method => ["key", "value"]
  | .entryValue => ["key", "value"]
  | .moduleBody => ["body"]
  | _ => []

def Construct.requiredFields (construct : Construct) : List String :=
  construct.parts.flatMap Part.requiredFields

/-- The fields that the rule of a node reads as required, with the nodes that have to hold
them: fields of the node itself, the sides of a pattern among the parameters of a function,
the declarators of the declaration that starts a loop, and the object of a callee that a
substitute takes apart. -/
inductive Node.Requires (node : Node) : Node → String → Prop where
  | own (field : String) : Requires node node field
  | side {params : List Value} {pattern : Node} {field : String}
      (function : node.kind = "FunctionDeclaration" ∨ node.kind = "FunctionExpression")
      (held : (node.field "params").items = .ok params) (listed : .node pattern ∈ params)
      (kind : pattern.kind = "AssignmentPattern") (side : field = "left" ∨ field = "right") :
      Requires node pattern field
  | declarators {start : Node} (loop : node.kind = "ForStatement")
      (held : node.field "init" = .node start) (kind : start.kind = "VariableDeclaration") :
      Requires node start "declarations"
  | object {callee : Node} (access : node.kind = "CallExpression" ∨ node.kind = "MemberExpression")
      (held : node.field "callee" = .node callee) : Requires node callee "object"

/-- A missing field is one that a node requires and that its holder really lacks. -/
def Node.Misses (node : Node) (missing : Missing) : Prop :=
  ∃ holder field, node.Requires holder field ∧ holder.field? field = none ∧
    missing = holder.missing field

/-- Whether the rendering of a node follows the policy for malformed nodes: there is no
text, and the last diagnostic is about a field that is missing for the node. -/
def Node.FollowsPolicy (node : Node) (emission : Emission Crash String) : Prop :=
  emission.outcome = .ok "" ∧ ∃ missing, node.Misses missing ∧
    emission.events.getLast? = some (.reported (Diagnostic.ofMissing missing))

/-! ## Fields that are missing -/

def Task.IsOwned (node : Node) : Task → Prop
  | .stop (.missing missing) => node.Misses missing
  | _ => True

section Owners

variable {options : Options} {node : Node} {position : Position}

/-- The parameters of a copy with those of a function: only a pattern among them lacks a
field of its own. -/
theorem Part.parameters_owned {copy : Node} (params : copy.field "params" = node.field "params")
    (function : node.kind = "FunctionDeclaration" ∨ node.kind = "FunctionExpression") :
    ∀ task ∈ Part.parameters.tasks options copy position, task.IsOwned node := by
  intro task among
  cases Part.parameters.tasks_do options copy position task among with
  | @lacks holder field needs lacks =>
      cases needs with
      | own others => exact absurd rfl others
      | side read held listed kind side =>
          rw [params] at held
          exact ⟨holder, field, .side function held listed kind side, lacks, rfl⟩
      | declarators read => cases read
      | object read => rcases read with other | other <;> cases other
  | nameless read blank => cases read
  | orphan read alone => cases read
  | unnamed read nameless => cases read
  | _ => trivial

/-- The kind of a node with a part that belongs to the construct of one kind only. -/
theorem Construct.kind_of_part (only : Construct) {construct : Construct} {part : Part} {kind : String}
    (known : Construct.ofKind? node.kind = some construct) (listed : part ∈ construct.parts)
    (owner : ∀ construct : Construct, part ∈ construct.parts → construct = only)
    (table : ∀ entry ∈ Construct.byKind, entry.2 = only → entry.1 = kind) : node.kind = kind := by
  rw [owner construct listed] at known
  exact Construct.kind_eq known table

/-- What a part needs, the node requires. -/
theorem Part.Needs.requires {construct : Construct}
    (known : Construct.ofKind? node.kind = some construct) {part : Part}
    (listed : part ∈ construct.parts) {holder : Node} {field : String}
    (needs : part.Needs node holder field) : node.Requires holder field := by
  cases needs with
  | own others => exact .own field
  | side read held inside kind side =>
      subst read
      have function : node.kind = "FunctionDeclaration" :=
        Construct.kind_of_part .functionDeclaration known listed
        (fun construct => by cases construct <;> decide) (by decide)
      exact .side (.inl function) held inside kind side
  | declarators read held kind =>
      subst read
      have loop : node.kind = "ForStatement" := Construct.kind_of_part .forStatement known listed
        (fun construct => by cases construct <;> decide) (by decide)
      exact .declarators loop held kind
  | object read held =>
      rcases read with rfl | rfl
      · have call : node.kind = "CallExpression" := Construct.kind_of_part .call known listed
          (fun construct => by cases construct <;> decide) (by decide)
        exact .object (.inl call) held
      · have access : node.kind = "MemberExpression" := Construct.kind_of_part .member known listed
          (fun construct => by cases construct <;> decide) (by decide)
        exact .object (.inr access) held

theorem Construct.eq_identifier {construct : Construct} (listed : .name ∈ construct.parts) :
    construct = .identifier := by
  revert listed
  cases construct <;> decide

theorem Construct.eq_importSpecifier {construct : Construct}
    (listed : .importedModule ∈ construct.parts) : construct = .importSpecifier := by
  revert listed
  cases construct <;> decide

/-- A part ends the rule of a node only for a field that is missing for the node. -/
theorem Part.tasks_owned {construct : Construct} (known : Construct.ofKind? node.kind = some construct)
    (plain : construct ≠ .identifier ∧ construct ≠ .importSpecifier) {part : Part}
    (listed : part ∈ construct.parts) :
    ∀ task ∈ part.tasks options node position, task.IsOwned node := by
  intro task among
  cases part.tasks_do options node position task among with
  | @lacks holder field needs lacks =>
      exact ⟨holder, field, needs.requires known listed, lacks, rfl⟩
  | nameless read blank => exact absurd (Construct.eq_identifier (read ▸ listed)) plain.1
  | orphan read alone => exact absurd (Construct.eq_importSpecifier (read ▸ listed)) plain.2
  | unnamed read nameless => exact absurd (Construct.eq_importSpecifier (read ▸ listed)) plain.2
  | _ => trivial

/-- A rule that is not left to a copy stops only for a field that is missing. -/
theorem Node.misses_of_isDropped {construct : Construct}
    (known : Construct.ofKind? node.kind = some construct)
    (plain : construct ≠ .identifier ∧ construct ≠ .importSpecifier) {missing : Missing}
    (dropped : node.IsDropped options position missing) : node.Misses missing := by
  have held := stop_of_perform_missing (Node.isDropped_iff.mp dropped)
  rw [Node.tasks_eq known] at held
  obtain ⟨part, listed, among⟩ := List.mem_flatMap.mp held
  exact Part.tasks_owned known plain listed _ among

/-! ## Fields that are required -/

theorem Task.stops_needed {field : String} {next : Value → List Task}
    (rest : ∀ value, node.field? field = some value → ∃ fault, .stop fault ∈ next value) :
    ∃ fault, .stop fault ∈ needed node field next := by
  unfold needed Node.require
  cases found : node.field? field with
  | none => exact ⟨_, List.mem_singleton_self _⟩
  | some value => exact rest value found

/-- A part stops the rule of a node that lacks a field that it requires, unless the part
is left to a copy. -/
theorem Part.stops_of_lacking (options : Options) (position : Position) {part : Part}
    {field : String} (required : field ∈ part.requiredFields)
    (own : part ≠ .construction ∧ part ≠ .declaration) (lacks : node.field? field = none) :
    ∃ fault, .stop fault ∈ part.tasks options node position := by
  have first {next : Value → List Task} : ∃ fault, .stop fault ∈ Task.needed node field next :=
    Task.stops_needed fun value found => nomatch lacks.symm.trans found
  have either {one other : String} (among : field ∈ [one, other])
      {next : Value → Value → List Task} : ∃ fault, .stop fault ∈
        Task.needed node one fun value => Task.needed node other (next value) := by
    rcases List.mem_cons.mp among with rfl | later
    · exact first
    · cases List.mem_singleton.mp later
      exact Task.stops_needed fun _ _ => first
  cases part with
  | present known => cases List.mem_singleton.mp required; exact first
  | mark known => cases List.mem_singleton.mp required; exact first
  | child known => cases List.mem_singleton.mp required; exact first
  | text known => cases List.mem_singleton.mp required; exact first
  | side known => cases List.mem_singleton.mp required; exact first
  | children known => cases List.mem_singleton.mp required; exact first
  | statements known => cases List.mem_singleton.mp required; exact first
  | call => cases List.mem_singleton.mp required; exact first
  | construction => exact absurd rfl own.1
  | access => exact either required
  | declaration => exact absurd rfl own.2
  | method => exact either required
  | entryValue => exact either required
  | moduleBody => cases List.mem_singleton.mp required; exact first
  | _ => cases required

end Owners

/-! ## The policy -/

section Policy

variable {options : Options} {node : Node} {position : Position}

/-- A node follows the policy when it, or its copy, is left out for a field that it
misses. -/
theorem Node.IsDropped.followsPolicy {copy : Node} {missing : Missing}
    (dropped : copy.IsDropped options position missing) (misses : node.Misses missing) :
    node.FollowsPolicy (PhpRendering.render options (.node copy) position) := by
  rw [dropped.render]
  exact ⟨rfl, missing, misses, List.getLast?_concat ..⟩

/-- The rule of a construct that is not left to a copy follows the policy. -/
theorem Node.followsPolicy_of_lacking {construct : Construct}
    (known : Construct.ofKind? node.kind = some construct)
    (own : construct ≠ .construction ∧ construct ≠ .functionExpression) {field : String}
    (required : field ∈ construct.requiredFields) (lacks : node.field? field = none) {text : String}
    (fine : (render options (.node node) position).outcome = .ok text) :
    node.FollowsPolicy (render options (.node node) position) := by
  obtain ⟨part, listed, reads⟩ := List.mem_flatMap.mp required
  have direct : part ≠ .construction ∧ part ≠ .declaration := by
    refine ⟨?_, ?_⟩ <;> rintro rfl
    · exact own.1 (Construct.eq_construction listed)
    · exact own.2 (Construct.eq_functionExpression listed)
  have plain : construct ≠ .identifier ∧ construct ≠ .importSpecifier := by
    refine ⟨?_, ?_⟩ <;> rintro rfl <;> cases required
  obtain ⟨fault, held⟩ := Part.stops_of_lacking options position reads direct lacks
  have stopped : .stop fault ∈ node.tasks options position := by
    rw [Node.tasks_eq known]
    exact List.mem_flatMap.mpr ⟨part, listed, held⟩
  obtain ⟨missing, dropped⟩ := Node.isDropped_of_stop stopped fine
  exact dropped.followsPolicy (Node.misses_of_isDropped known plain dropped)

/-- A construction has the text of its copy behind its keyword, when that yields a text. -/
theorem render_construction (known : Construct.ofKind? node.kind = some .construction) :
    render options (.node node) position =
      (render options (.node (Rule.asCall node)) (.within node)).andThen fun text =>
        if (Rule.asCall node).form.isText then .done ("new " ++ text) else .fail .notAName := by
  rw [render_eq, renderNode, node.layout_eq known, node.owesTerminator_eq known]
  simp only [Construct.layout, Construct.owesTerminator, Layout.closed, Layout.wanting]
  cases (Rule.asCall node).form.isText with
  | true =>
      simp only [if_true, Layout.write, Rule.child]
      obtain ⟨events, outcome⟩ := render options (.node (Rule.asCall node)) (.within node)
      cases outcome <;> simp [Emission.insideRule, Emission.andThen, Emission.done, atBoundary,
        Fragment.terminated]
  | false =>
      simp only [Bool.false_eq_true, if_false, Layout.write, Rule.child]
      obtain ⟨events, outcome⟩ := render options (.node (Rule.asCall node)) (.within node)
      cases outcome <;> simp [Emission.insideRule, Emission.andThen, Emission.done, Emission.fail,
        atBoundary]

/-- A function expression is rendered as its copy. -/
theorem render_functionExpression (known : Construct.ofKind? node.kind = some .functionExpression) :
    render options (.node node) position =
      render options (.node (Rule.asDeclaration node (node.field "id").name)) position := by
  rw [render_eq, renderNode, node.layout_eq known, node.owesTerminator_eq known]
  simp only [Construct.layout, Construct.owesTerminator, Layout.closed, Layout.write, Rule.child]
  obtain ⟨events, outcome⟩ :=
    render options (.node (Rule.asDeclaration node (node.field "id").name)) position
  cases outcome <;> simp [Emission.insideRule, Emission.andThen, Emission.done, atBoundary,
    Fragment.terminated]

end Policy

/-! ## Function expressions -/

/-- Whether a pattern among the parameters of a function lacks one of its sides. -/
def Node.HasBrokenPattern (function : Node) : Prop :=
  ∃ params pattern, (function.field "params").items = .ok params ∧ .node pattern ∈ params ∧
    pattern.kind = "AssignmentPattern" ∧
      (pattern.field? "left" = none ∨ pattern.field? "right" = none)

theorem Value.isTruthy_of_items {value item : Value} {items : List Value}
    (listed : value.items = .ok items) (inside : item ∈ items) : value.isTruthy = true := by
  have nonempty : items ≠ [] := List.ne_nil_of_mem inside
  cases value with
  | list known =>
      cases listed
      simpa [isTruthy] using nonempty
  | record members =>
      cases listed
      simpa [isTruthy] using nonempty
  | scalar scalar =>
      cases scalar with
      | text known =>
          cases listed
          simpa [isTruthy, Scalar.isTruthy, letters] using nonempty
      | null => cases listed
      | bool flag => cases listed
      | int number => cases listed
      | float number => cases listed
  | foreign origin => rfl
  | node node => rfl

section FunctionExpression

variable {options : Options} {node : Node} {position : Position}

theorem Node.HasBrokenPattern.stops (options : Options) (position : Position) {copy : Node}
    (broken : node.HasBrokenPattern) (same : copy.field "params" = node.field "params") :
    ∃ fault, .stop fault ∈ Part.parameters.tasks options copy position := by
  obtain ⟨params, pattern, held, listed, kind, lacks⟩ := broken
  have given : copy.optionalItems "params" = .ok params := by
    unfold optionalItems flag
    rw [same, Value.isTruthy_of_items held listed, if_pos rfl, held]
  obtain ⟨index, place⟩ := List.getElem?_of_mem listed
  have single : ∃ fault, .stop fault ∈ Task.parameter copy (.node pattern) index := by
    unfold Task.parameter
    cases (Rule.defaults copy).itemAt index with
    | error crash => exact ⟨_, List.mem_singleton_self _⟩
    | ok default =>
        simp only [Task.shaped, Value.asNode, kind, if_true]
        refine Task.stops_needed fun target found => Task.stops_needed fun given found' => ?_
        rcases lacks with left | right
        · cases left.symm.trans found
        · cases right.symm.trans found'
  obtain ⟨fault, stops⟩ := single
  refine ⟨fault, ?_⟩
  simp only [Part.tasks, given, Task.shaped]
  exact List.mem_flatMap.mpr ⟨(.node pattern, index), List.mem_zipIdx_iff_getElem?.mpr place, stops⟩

/-- Diagnostics of missing fields tell the fields apart. -/
theorem Diagnostic.ofMissing_inj {missing other : Missing}
    (same : Diagnostic.ofMissing missing = Diagnostic.ofMissing other) : missing = other := by
  obtain ⟨kind, line, field⟩ := missing
  obtain ⟨otherKind, otherLine, otherField⟩ := other
  simp only [Diagnostic.ofMissing, Diagnostic.mk.injEq, Cause.missing.injEq] at same
  simp only [same]

/-- A declaration misses a field of its own or a side of one of its patterns. -/
theorem Node.Misses.kind_of_declaration {missing : Missing} (misses : node.Misses missing)
    (kind : node.kind = "FunctionDeclaration") :
    missing.kind = "FunctionDeclaration" ∨ missing.kind = "AssignmentPattern" := by
  obtain ⟨holder, field, requires, -, rfl⟩ := misses
  cases requires with
  | own => exact .inl kind
  | side function held listed pattern side => exact .inr pattern
  | declarators loop held start => exact nomatch kind.symm.trans loop
  | object access held =>
      rcases access with call | member
      · exact nomatch kind.symm.trans call
      · exact nomatch kind.symm.trans member

/-- A function expression without a body follows the policy only when the diagnostic is
about one of its parameters; otherwise it is about the copy that stands for it. -/
theorem Node.functionExpression_followsPolicy_iff (kind : node.kind = "FunctionExpression")
    (lacks : node.field? "body" = none) {text : String}
    (fine : (render options (.node node) position).outcome = .ok text) :
    node.FollowsPolicy (render options (.node node) position) ↔ node.HasBrokenPattern := by
  have known : Construct.ofKind? node.kind = some .functionExpression := by
    rw [kind]
    rfl
  rw [render_functionExpression known] at fine ⊢
  generalize made : Rule.asDeclaration node (node.field "id").name = copy at fine ⊢
  have params : copy.field "params" = node.field "params" :=
    made ▸ Rule.asDeclaration_field (by decide) node _
  have copyLacks : copy.field? "body" = none := by
    rw [← lacks, Node.field?, Node.field?, ← made, Rule.asDeclaration_field (by decide)]
  have copyKind : copy.kind = "FunctionDeclaration" := made ▸ rfl
  have copyKnown : Construct.ofKind? copy.kind = some .functionDeclaration := by
    rw [copyKind]
    rfl
  have tasks : copy.tasks options position = _ := Node.tasks_of_declaration copyKind
  constructor
  · rintro ⟨-, missing, misses, last⟩
    have required : "body" ∈ (Part.present "body").requiredFields := List.mem_singleton_self _
    obtain ⟨fault, stops⟩ :=
      Part.stops_of_lacking options position required (by decide) copyLacks
    have held : .stop fault ∈ copy.tasks options position := by simp [tasks, stops]
    obtain ⟨reported, dropped⟩ := Node.isDropped_of_stop held fine
    rw [dropped.render, List.getLast?_concat] at last
    cases Diagnostic.ofMissing_inj (Event.reported.inj (Option.some.inj last))
    have byCopy := (Node.misses_of_isDropped copyKnown (by decide) dropped).kind_of_declaration
      copyKind
    obtain ⟨holder, field, requires, lacking, rfl⟩ := misses
    cases requires with
    | own =>
        rcases byCopy with declaration | pattern
        · exact absurd (kind.symm.trans declaration) (by decide)
        · exact absurd (kind.symm.trans pattern) (by decide)
    | side function held listed pattern side =>
        refine ⟨_, _, held, listed, pattern, ?_⟩
        rcases side with rfl | rfl
        · exact .inl lacking
        · exact .inr lacking
    | declarators loop held start => exact absurd (kind.symm.trans loop) (by decide)
    | object access held =>
        rcases access with call | member
        · exact absurd (kind.symm.trans call) (by decide)
        · exact absurd (kind.symm.trans member) (by decide)
  · intro broken
    obtain ⟨fault, stops⟩ := broken.stops options position params
    obtain ⟨failure, outcome⟩ := perform_stopped (render options) stops
    have held : .stop fault ∈ copy.tasks options position := by simp [tasks, stops]
    obtain ⟨missing, dropped⟩ := Node.isDropped_of_stop held fine
    have cut := Node.isDropped_iff.mp dropped
    rw [tasks, perform_append_of_error outcome] at cut
    exact dropped.followsPolicy
      (Part.parameters_owned params (.inr kind) _ (stop_of_perform_missing cut))

end FunctionExpression

/-- The policy for malformed nodes holds for all kinds but two. A node that lacks a field
that its rule always requires, and that is rendered, leaves no text, and the last
diagnostic is about a field that it, or a node for which its rule read the field, really
lacks. Constructions never follow this policy, and function expressions only when the
diagnostic is about one of their parameters. -/
theorem malformed_policy_iff (options : Options) {node : Node} {construct : Construct}
    (known : Construct.ofKind? node.kind = some construct) {field : String}
    (required : field ∈ construct.requiredFields) (lacks : node.field? field = none)
    (position : Position) {text : String}
    (fine : (render options (.node node) position).outcome = .ok text) :
    node.FollowsPolicy (render options (.node node) position) ↔
      node.kind ≠ "NewExpression" ∧ (node.kind = "FunctionExpression" → node.HasBrokenPattern) := by
  by_cases construction : construct = .construction
  · subst construction
    have kind : node.kind = "NewExpression" := Construct.kind_eq known (by decide)
    refine ⟨fun follows => ?_, fun other => absurd kind other.1⟩
    have empty := follows.1
    rw [render_construction known] at empty
    generalize render options (.node (Rule.asCall node)) (.within node) = call at empty
    obtain ⟨events, outcome⟩ := call
    cases outcome with
    | error crash => cases empty
    | ok rest =>
        simp only [Emission.andThen] at empty
        split at empty
        · have text : "new " ++ rest = "" := Except.ok.inj empty
          exact absurd (String.append_eq_empty_iff.mp text).1 (by decide)
        · cases empty
  · by_cases expression : construct = .functionExpression
    · subst expression
      have kind : node.kind = "FunctionExpression" := Construct.kind_eq known (by decide)
      cases List.mem_singleton.mp required
      rw [Node.functionExpression_followsPolicy_iff kind lacks fine]
      exact ⟨fun broken => ⟨kind ▸ by decide, fun _ => broken⟩, fun other => other.2 kind⟩
    · have follows := Node.followsPolicy_of_lacking known ⟨construction, expression⟩ required lacks
        fine
      refine iff_of_true follows ⟨fun kind => construction ?_, fun kind => absurd ?_ expression⟩
      · rw [kind] at known
        exact (Option.some.inj known).symm
      · rw [kind] at known
        exact (Option.some.inj known).symm

def bareConstruction : Node :=
  ⟨⟨0, []⟩, "NewExpression", [("arguments", .list [])], none⟩

/-- The keyword of a construction without a callee stays in the output, and the diagnostic
is about a call that is not in the tree. -/
theorem bareConstruction_breaks_policy :
    bareConstruction.field? "callee" = none ∧
      (render {} (.node bareConstruction) {}).outcome = .ok "new " ∧
      (render {} (.node bareConstruction) {}).events.getLast? =
        some (.reported ⟨"CallExpression", .missing "callee", .null⟩) ∧
      ¬ bareConstruction.FollowsPolicy (render {} (.node bareConstruction) {}) := by
  have known : Construct.ofKind? bareConstruction.kind = some .construction := rfl
  have required : "callee" ∈ Construct.construction.requiredFields := List.mem_singleton_self _
  have fine : (render {} (.node bareConstruction) {}).outcome = .ok "new " := rfl
  refine ⟨rfl, fine, rfl, fun follows => ?_⟩
  exact ((malformed_policy_iff {} known required rfl {} fine).mp follows).1 rfl

end PhpRendering
