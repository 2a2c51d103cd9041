import PhpRendering.Proofs.Completeness
import PhpRendering.Proofs.Filling
import PhpRendering.Proofs.Nesting

/-!
# Statements in their contexts

A context is a node with a way from it to one statement in a list. Whatever statement
stands at the end of the way, its text stands between the same texts and what happens
while it is rendered happens between the same events. No ancestor looks into a statement.
-/

namespace PhpRendering

/-- Whether some steps lead from a node at a position to a statement at another one: through
values that nodes have rendered, each node being of a kind with a rule and lacking nothing
that its rule asks for, to an item of a list of statements. The substitute for characters
writes only the first operand. What stands in the node itself at the end of the steps only
marks the place. -/
inductive Node.IsContext (options : Options) :
    Node → Position → List Step → Position → Prop where
  | here {node old : Node} {position place : Position} {construct : Construct} {field : String}
      {index : Nat} (known : Construct.ofKind? node.kind = some construct)
      (lists : construct ∈ Construct.listingStatements)
      (lacksNothing : ∀ missing, .stop (.missing missing) ∉ node.tasks options position)
      (held : .visit (.item field index) (.node old) place ∈ node.tasks options position) :
      IsContext options node position [.member field, .item index] place
  | deeper {node inner : Node} {position place hole : Position} {source : Source}
      {path rest : List Step}
      (lacksNothing : ∀ missing, .stop (.missing missing) ∉ node.tasks options position)
      (written : node.substitute? options position ≠ some .charAt)
      (held : .visit source (.node inner) place ∈ node.tasks options position)
      (admits : source.admits inner.kind = true) (leads : source.Leads path rest)
      (context : IsContext options inner place rest hole) :
      IsContext options node position path hole

section Context

variable {options : Options} {node inner : Node} {position place hole : Position} {source : Source}
  {construct : Construct} {path rest : List Step}

/-- The kind of a node that has something rendered has a rule. -/
theorem Node.known_of_visit {value : Value}
    (held : .visit source value place ∈ node.tasks options position) :
    ∃ construct, Construct.ofKind? node.kind = some construct ∧
      .visit source value place ∈ construct.tasks options node position := by
  obtain ⟨construct, known, -⟩ := Node.visit_provided held
  exact ⟨construct, known, Node.tasks_eq known options position ▸ held⟩

theorem Value.at_null (route : List Step) : Value.null.at route = .null := by
  induction route with
  | nil => rfl
  | cons step rest ih => cases step <;> exact ih

/-- The first step of a way leads to something. -/
theorem Source.Leads.field_ne_null {name : String} {more : List Step}
    (leads : source.Leads (.member name :: more) rest)
    (value : source.valueAt options node = .node inner)
    (present : ∀ first later, rest = .member first :: later → inner.field first ≠ .null) :
    node.field name ≠ .null := by
  intro nothing
  have lost (route : List Step) : (Value.node node).at (.member name :: route) = .null := by
    change (node.field name).at route = .null
    rw [nothing]
    exact Value.at_null route
  cases leads with
  | copy plain rest =>
      have something := present _ _ rfl
      simp only [Source.valueAt] at value
      split at value
      · cases value
        exact something nothing
      · cases value
        rw [Rule.asDeclaration_field plain] at something
        exact something nothing
  | field name rest => cases (lost []).symm.trans value
  | item name index rest => cases (lost [_]).symm.trans value
  | receiver rest => cases (lost [_]).symm.trans value
  | declarator index rest => cases (lost [_, _]).symm.trans value
  | method plain rest =>
      simp only [Source.valueAt, lost []] at value
      cases value
  | left index rest =>
      cases value
      exact present _ _ rfl (lost [_, _])
  | right index rest =>
      cases value
      exact present _ _ rfl (lost [_, _])
  | param index rest =>
      cases value
      exact present _ _ rfl (lost [_])
  | default index rest =>
      cases value
      exact present _ _ rfl (lost [_])

namespace Node.IsContext

/-- A way to a statement leads through no name. -/
theorem leadsToStatement (context : node.IsContext options position path hole) :
    LeadsToStatement path := by
  induction context with
  | @here node old position place construct field index known lists lacksNothing held =>
      rw [Node.tasks_eq known] at held
      exact .statement (Construct.field_of_statement lists held) index
  | deeper lacksNothing written held admits leads context ih =>
      obtain ⟨construct, known, held⟩ := Node.known_of_visit held
      exact leads.leadsToStatement ih (Construct.name_not_mem held)

theorem field_ne_null (context : node.IsContext options position path hole)
    (readable : node.Readable) {name : String} {more : List Step}
    (way : path = .member name :: more) : node.field name ≠ .null := by
  induction context generalizing name more with
  | @here node old position place construct field index known lists lacksNothing held =>
      cases way
      rw [Node.tasks_eq known] at held
      have value := Construct.valueAt_eq known
        (fun function => readable.defaults_text? (function ▸ known)) held
      intro nothing
      change (node.field field).down (.item index) = _ at value
      rw [nothing] at value
      cases value
  | deeper lacksNothing written held admits leads context ih =>
      subst way
      obtain ⟨construct, known, held⟩ := Node.known_of_visit held
      obtain ⟨_, ⟨⟩, below⟩ := readable.visits_nodes known held
      have value := Construct.valueAt_eq known
        (fun function => readable.defaults_text? (function ▸ known)) held
      exact leads.field_ne_null value fun first later way => ih below way

theorem exists_member (context : node.IsContext options position path hole) :
    ∃ name more, path = .member name :: more := by
  induction context with
  | here => exact ⟨_, _, rfl⟩
  | deeper lacksNothing written held admits leads context ih =>
      cases leads with
      | field | item | receiver | declarator | method | left | right | param | default | copy =>
          exact ⟨_, _, rfl⟩

end Node.IsContext

/-- When the layout of a node changes in one slot only, so does its text. -/
theorem Construct.exists_gap (known : Construct.ofKind? node.kind = some construct)
    (readable : node.Readable) (usable : position.IsUsable)
    (lacksNothing : ∀ missing, .stop (.missing missing) ∉ node.tasks options position)
    {gap : Gap} {behind : String}
    (shown : (construct.layout options node position).Shows source gap.after behind)
    (long : construct.owesTerminator options node position = true → 2 ≤ behind.length) :
    ∃ outer : Gap, behind.toList.Sublist outer.after.toList ∧
      ∀ {statement : Emission Crash String} {old new : Value} {place : Position} {other : Node},
        other.kind = node.kind → gap.Holds statement (render options new place) →
        (construct.layout options node position).Like (Task.Refilled source old new place)
          (construct.layout options other position) →
        construct.owesTerminator options node position =
          construct.owesTerminator options other position →
        outer.Holds statement (render options (.node other) position) := by
  have tasks_eq : (construct.layout options node position).tasks = node.tasks options position := by
    rw [construct.layout_tasks, Node.tasks_eq known]
  have safe := Node.tasks_safe options readable usable
  have slots : ∀ source value place,
      .visit source value place ∈ (construct.layout options node position).tasks →
        ∃ text, (render options value place).outcome = .ok text := by
    intro source value place held
    rw [tasks_eq] at held
    obtain ⟨⟨child, rfl, below⟩, fine⟩ := safe _ held
    exact (render_isSafe options below fine).outcome
  have free : ∀ fault, .stop fault ∉ (construct.layout options node position).tasks := by
    intro fault held
    rw [tasks_eq] at held
    obtain ⟨missing, rfl⟩ := safe _ held
    exact lacksNothing missing held
  have apart : (construct.layout options node position).tasks.Pairwise Task.Apart := by
    rw [construct.layout_tasks]
    exact Construct.pairwise_tasks options node position construct
  obtain ⟨wider, sub, holds⟩ := shown.exists_gap
    (fun other value place held _ => slots other value place held) free apart
  let owing : Fragment String := ⟨wider.after, construct.owesTerminator options node position⟩
  refine ⟨{ wider with after := owing.terminated }, sub.trans (Text.sublist_terminated owing), ?_⟩
  intro statement old new place other kind filled like owes
  have knownToo : Construct.ofKind? other.kind = some construct := kind ▸ known
  rw [render_eq, renderNode, other.layout_eq knownToo, other.owesTerminator_eq knownToo, ← owes]
  exact (holds filled like).atBoundary fun asked =>
    Nat.le_trans (long asked) (Text.length_le_of_sublist sub)

/-- A node with a list of statements is open and owes no terminator. -/
theorem Construct.of_listingStatements (known : Construct.ofKind? node.kind = some construct)
    (lists : construct ∈ Construct.listingStatements) :
    node.kind ∈ openKinds ∧ construct.owesTerminator options node position = false := by
  have table : ∀ entry ∈ Construct.byKind, entry.2 ∈ Construct.listingStatements →
      entry.1 ∈ openKinds := by decide
  refine ⟨table _ (Construct.mem_byKind known) lists, ?_⟩
  simp only [Construct.listingStatements, List.mem_cons, List.not_mem_nil, or_false] at lists
  rcases lists with rfl | rfl | rfl <;> rfl

/-- A node with a list of statements writes all it does. -/
theorem Construct.isStraight_of_listingStatements (readable : node.Readable)
    (known : Construct.ofKind? node.kind = some construct)
    (lists : construct ∈ Construct.listingStatements) :
    (construct.layout options node position).isStraight = true := by
  have table : ∀ construct ∈ Construct.listingStatements,
      construct ∉ [.call, .member, .ifStatement, .forStatement, .forInStatement] := by decide
  have other := table construct lists
  simp only [List.mem_cons, not_or] at other
  refine Construct.layout_isStraight readable ?_ known (by simp [other])
  simp [Node.substitute?, known, other]

/-- Behind the statement of a context stands enough to tell whether it ends a statement,
unless the node is open. The induction is on the way, from the statement outwards. -/
theorem Node.IsContext.exists_gap (context : node.IsContext options position path hole)
    (readable : node.Readable) (usable : position.IsUsable) :
    ∃ gap : Gap, (node.kind ∉ openKinds → 2 ≤ gap.after.length) ∧
      ∀ statement : Node, statement.form = .text →
        gap.Holds (render options (.node statement) hole)
          (render options (Value.put (.node statement) path (.node node)) position) := by
  induction context with
  | @here node old position place construct field index known lists lacksNothing held =>
      rw [Node.tasks_eq known] at held
      have among : .visit (.item field index) (.node old) place ∈
          (construct.layout options node position).tasks := by
        rwa [construct.layout_tasks]
      obtain ⟨isOpen, owes⟩ := Construct.of_listingStatements known lists
      have straight : (construct.layout options node position).isStraight = true :=
        Construct.isStraight_of_listingStatements readable known lists
      obtain ⟨behind, shown, -⟩ := Layout.shows_of_isStraight straight among Gap.alone.after
      obtain ⟨gap, -, holds⟩ := Construct.exists_gap known readable usable lacksNothing shown
        fun asked => absurd (owes.symm.trans asked) Bool.false_ne_true
      refine ⟨gap, fun closed => absurd isOpen closed, fun statement yields => ?_⟩
      have like := Construct.layout_refilled_of_statement known lists readable held yields
      have kind : (node.put (.node statement) field [.item index]).kind = node.kind := rfl
      have knownToo := kind.symm ▸ known
      obtain ⟨-, owesToo⟩ := Construct.of_listingStatements knownToo lists
      exact holds kind (Gap.Holds.alone _) like (owes.trans owesToo.symm)
  | deeper lacksNothing written held admits leads context ih =>
      obtain ⟨construct, known, held⟩ := Node.known_of_visit held
      obtain ⟨⟨_, ⟨⟩, below⟩, fine⟩ :=
        Node.tasks_safe options readable usable _ (Node.tasks_eq known options _ ▸ held)
      obtain ⟨inner, long, filled⟩ := ih below fine
      have among := construct.layout_tasks options _ _ ▸ held
      obtain ⟨behind, shown, enough⟩ := Construct.shows admits long known readable written among
      obtain ⟨gap, sub, holds⟩ := Construct.exists_gap known readable usable lacksNothing shown
        fun asked => enough (.inr asked)
      refine ⟨gap, fun closed => ?_, fun statement yields => ?_⟩
      · exact Nat.le_trans (enough (.inl closed)) (Text.length_le_of_sublist sub)
      · obtain ⟨name, more, rfl⟩ := (IsContext.deeper lacksNothing written
          (Node.tasks_eq known options _ ▸ held) admits leads context).exists_member
        obtain ⟨like, owes⟩ := Construct.layout_refilled known readable held leads
          context.leadsToStatement (fun _ _ => context.field_ne_null below) (.node statement)
        exact holds rfl (filled statement yields) like owes

end Context

/-! ## Isolation -/

def Emission.diagnostics {ε α : Type} (emission : Emission ε α) : List Diagnostic :=
  emission.events.filterMap Event.diagnostic?

def Emission.entries {ε α : Type} (emission : Emission ε α) : List FunctionEntry :=
  emission.functions.map Node.entry

/-! ### Events that correspond -/

section Events

variable {E : Node → Node → Prop} {events others : List Event}
  (all : List.Forall₂ (Event.Like E) events others)

include all

theorem diagnostics_of_like :
    events.filterMap Event.diagnostic? = others.filterMap Event.diagnostic? := by
  refine List.forall₂_eq_eq_eq ▸ List.rel_filterMap (fun _ _ like => ?_) all
  cases like with
  | reported diagnostic => exact .some rfl
  | entered related => exact .none

theorem functions_of_like :
    List.Forall₂ E (events.filterMap Event.function?) (others.filterMap Event.function?) := by
  refine List.rel_filterMap (fun _ _ like => ?_) all
  cases like with
  | reported diagnostic => exact .none
  | entered related => exact .some related

end Events

/-- Events that look the same report the same and have the same entries. -/
theorem Event.like_projections {events others : List Event}
    (like : List.Forall₂ (Event.Like Node.SameEntry) events others) :
    events.filterMap Event.diagnostic? = others.filterMap Event.diagnostic? ∧
      (events.filterMap Event.function?).map Node.entry =
        (others.filterMap Event.function?).map Node.entry := by
  constructor
  · exact diagnostics_of_like like
  · have entries : List.Forall₂ Eq ((events.filterMap Event.function?).map Node.entry)
        ((others.filterMap Event.function?).map Node.entry) := by
      rw [List.forall₂_map_left_iff, List.forall₂_map_right_iff]
      exact functions_of_like like
    exact List.forall₂_eq_eq_eq ▸ entries

/-- Statements are isolated. A readable node with a way through what it has rendered to a
statement in a list writes one text before and one text behind whatever statement stands
there, as long as the rendering of the statement does not fail; and it makes the same
reports and has the same entries of functions before and after those of the statement. -/
theorem Node.IsContext.isolates {options : Options} {root : Node} {position hole : Position}
    {path : List Step} (context : root.IsContext options position path hole)
    (readable : root.Readable) (usable : position.IsUsable) :
    ∃ (before after : String) (early late : List Diagnostic) (first last : List FunctionEntry),
      ∀ (statement : Node) (text : String), statement.form = .text →
        (render options (.node statement) hole).outcome = .ok text →
          (render options (Value.put (.node statement) path (.node root)) position).outcome =
              .ok (before ++ text ++ after) ∧
            (render options (Value.put (.node statement) path (.node root)) position).diagnostics =
              early ++ (render options (.node statement) hole).diagnostics ++ late ∧
            (render options (Value.put (.node statement) path (.node root)) position).entries =
              first ++ (render options (.node statement) hole).entries ++ last := by
  obtain ⟨gap, -, holds⟩ := context.exists_gap readable usable
  refine ⟨gap.before, gap.after, gap.early.filterMap Event.diagnostic?,
    gap.late.filterMap Event.diagnostic?, (gap.early.filterMap Event.function?).map Node.entry,
    (gap.late.filterMap Event.function?).map Node.entry, fun statement text yields outcome => ?_⟩
  obtain ⟨written, early, late, events, likeEarly, likeLate⟩ :=
    holds statement yields text outcome
  have before := Event.like_projections likeEarly
  have after := Event.like_projections likeLate
  unfold Emission.diagnostics Emission.entries Emission.functions
  rw [events]
  simp [written, before, after]

theorem Task.lacksNothing_of_check {tasks : List Task} (checked : tasks.any isStop = false)
    (missing : Missing) : .stop (.missing missing) ∉ tasks := by
  intro held
  exact Bool.false_ne_true (checked.symm.trans (List.any_eq_true.mpr ⟨_, held, rfl⟩))

/-- The program `f(function () { ... });` with a `break` in the body of the function. -/
def callbackProgram : Node :=
  let node (kind : String) (fields : List (String × Value)) : Node := ⟨⟨0, []⟩, kind, fields, none⟩
  let body := node "BlockStatement" [("body", .list [.node (node "BreakStatement" [])])]
  let function := node "FunctionExpression" [("params", .list []), ("body", .node body)]
  let call := node "CallExpression"
    [("callee", .node (node "Identifier" [("name", .text "f")])),
      ("arguments", .list [.node function])]
  node "Program" [("body", .list [.node (node "ExpressionStatement" [("expression", .node call)])])]

def callbackPath : List Step :=
  [.member "body", .item 0, .member "expression", .member "arguments", .item 0, .member "body",
    .member "body", .item 0]

def callbackHole : Position :=
  { Position.within ⟨⟨0, []⟩, "BlockStatement", [], none⟩ with isLast := true }

theorem callbackProgram_isContext :
    callbackProgram.IsContext {} {} callbackPath callbackHole := by
  refine .deeper (Task.lacksNothing_of_check rfl) (by decide) (List.mem_cons_self ..) rfl
    (.item "body" 0 _) ?_
  refine .deeper (Task.lacksNothing_of_check rfl) (by decide) (List.mem_cons_self ..) rfl
    (.field "expression" _) ?_
  refine .deeper (Task.lacksNothing_of_check rfl) (by decide)
    (List.mem_cons_of_mem _ (List.mem_cons_self ..)) rfl (.item "arguments" 0 _) ?_
  refine .deeper (Task.lacksNothing_of_check rfl) (by decide) (List.mem_cons_self ..) rfl
    (.copy (by decide) _) ?_
  refine .deeper (Task.lacksNothing_of_check rfl) (by decide)
    (List.mem_cons_of_mem _ (List.mem_cons_self ..)) rfl (.field "body" _) ?_
  exact .here rfl (by decide) (Task.lacksNothing_of_check rfl) (List.mem_cons_self ..)

/-- The body of the callback is a context: what stands around the statement in it is the
same for all statements. -/
theorem callbackProgram_isolates :
    callbackProgram.Readable ∧ callbackProgram.IsContext {} {} callbackPath callbackHole ∧
      ∃ before after : String, ∀ (statement : Node) (text : String), statement.form = .text →
        (render {} (.node statement) callbackHole).outcome = .ok text →
          (render {} (Value.put (.node statement) callbackPath (.node callbackProgram)) {}).outcome =
            .ok (before ++ text ++ after) := by
  have readable : callbackProgram.Readable := Node.readable_of_check 8 (by decide)
  obtain ⟨before, after, _, _, _, _, isolated⟩ :=
    Node.IsContext.isolates callbackProgram_isContext readable ⟨rfl, ImportSource.noConfusion⟩
  exact ⟨readable, callbackProgram_isContext, before, after,
    fun statement text yields outcome => (isolated statement text yields outcome).1⟩

end PhpRendering
