import Mathlib.Data.List.Nodup
import PhpRendering.Proofs.Coverage
import PhpRendering.Proofs.EntryOrder

/-!
# Functions are reported once

A recorder that lists the functions it is told of has each one once, as a declaration with
its parameters and its body. It is told of a function before those in its body and after
those in its parameters. When nothing is reported, no function in an emitted position is
left out.
-/

namespace PhpRendering

/-! ## What a clean emission enters -/

theorem Emission.IsClean.andThen_functions {ε : Type} {first rest : Emission ε Unit}
    (clean : first.IsClean) :
    (first.andThen fun _ => rest).functions = first.functions ++ rest.functions := by
  obtain ⟨events, outcome⟩ := first
  obtain ⟨-, result, fine⟩ := clean
  cases fine
  exact List.filterMap_append

/-- Tasks that are done cleanly enter what each of them enters. -/
theorem perform_functions_of_mem {render : Renderer} {tasks : List Task} {task : Task}
    (clean : (perform render tasks).IsClean) (held : task ∈ tasks) :
    (task.perform render).functions ⊆ (perform render tasks).functions := by
  induction tasks with
  | nil => cases held
  | cons first rest ih =>
      rw [perform] at clean ⊢
      obtain ⟨before, after⟩ := Emission.andThen_isClean_iff.mp clean
      rw [before.andThen_functions]
      rcases List.mem_cons.mp held with rfl | later
      · exact List.subset_append_left _ _
      · exact List.Subset.trans (ih after later) (List.subset_append_right _ _)

/-! ## Nodes of a tree -/

/-- Every emitted field of a construct belongs to one of its parts, unless a copy is
rendered in the place of the node. -/
theorem Construct.exists_part {construct : Construct} (call : construct ≠ .construction)
    (declaration : construct ≠ .functionExpression) :
    ∀ name ∈ construct.emittedFields, ∃ part ∈ construct.parts, name ∈ part.emittedFields := by
  revert call declaration
  cases construct <;> decide

/-- The name of a function is not emitted. -/
theorem Construct.ne_id_of_emitted {part : Part} (listed : part ∈ Construct.functionDeclaration.parts) :
    "id" ∉ part.emittedFields := by
  have table : ∀ part ∈ Construct.functionDeclaration.parts, "id" ∉ part.emittedFields := by decide
  exact table part listed

theorem Construct.eq_exportDeclaration {construct : Construct}
    (listed : .exported ∈ construct.parts) : construct = .exportDeclaration := by
  revert listed
  cases construct <;> decide

namespace Node.StandsFor

variable {root node original : Node} {construct : Construct} {target : List Step} {name : String}

/-- A node that is no function and no call stands for a node of its kind. -/
theorem kind_eq (stands : node.StandsFor root original) (other : node.kind ≠ "FunctionDeclaration")
    (apart : node.kind ≠ "CallExpression") : node.kind = original.kind := by
  rcases stands.kind with same | declaration | ⟨call, -⟩
  · exact same
  · exact absurd declaration other
  · exact absurd call apart

/-- What the original emits, the construct of the node emits. -/
theorem emitted (isRoot : root.IsRoot) (stands : node.StandsFor root original)
    (known : Construct.ofKind? node.kind = some construct)
    (emits : original.emits ((Value.node root).isMethodPlace node.origin.steps) name = true) :
    name ∈ construct.emittedFields := by
  have functions : node.kind = "FunctionDeclaration" ∨ node.kind = "FunctionExpression" →
      construct.emittedFields = Construct.functionExpression.emittedFields := by
    rintro (kind | kind) <;>
    · rw [kind] at known
      cases known
      rfl
  have originally := stands.leads.isFunctionAt_iff isRoot
  rw [← stands.origin, stands.function] at originally
  cases method : (Value.node root).isMethodPlace node.origin.steps with
  | true =>
      rw [method] at emits originally
      rw [functions (originally.mpr (.inr rfl))]
      exact List.contains_iff_mem.mp emits
  | false =>
      rw [method] at emits originally
      simp only [Bool.false_eq_true, or_false] at originally
      rcases stands.kind with same | declaration | ⟨call, construction⟩
      · rw [same] at known
        exact Node.emits_construct known emits
      · rw [functions (.inl declaration)]
        have known : Construct.ofKind? original.kind = some .functionDeclaration ∨
            Construct.ofKind? original.kind = some .functionExpression := by
          rcases originally.mp (.inl declaration) with kind | kind
          · exact .inl (by rw [kind]; rfl)
          · exact .inr (by rw [kind]; rfl)
        rcases known with known | known
        · exact Node.emits_construct known emits
        · exact Node.emits_construct known emits
      · have called : Construct.ofKind? original.kind = some .construction := by
          rw [construction]
          rfl
        have fields := Node.emits_construct called emits
        rw [call] at known
        cases known
        exact fields

/-- The emitted fields of a node are those of the tree at its place. -/
theorem rooted (isRoot : root.IsRoot) (stands : node.StandsFor root original)
    (known : Construct.ofKind? node.kind = some construct) {part : Part}
    (listed : part ∈ construct.parts) (name : String) (emitted : name ∈ part.emittedFields) :
    (Value.node root).descendant (node.origin.down (.member name)).steps = node.field name := by
  have same : node.field name = original.field name := by
    rcases stands.fields name with same | ⟨kind, rfl⟩
    · exact same
    · rw [kind] at known
      cases known
      exact absurd emitted (Construct.ne_id_of_emitted listed)
  rw [stands.origin, same]
  change ((Value.node root).descendant original.origin.steps).down (.member name) = _
  rw [(stands.leads.descendant isRoot).1]
  rfl

/-- An export whose specifiers are emitted has no declaration. -/
theorem lacks_declaration (stands : node.StandsFor root original)
    (known : Construct.ofKind? node.kind = some .exportDeclaration) {isMethod : Bool}
    (own : isMethod = false) (emits : original.emits isMethod "specifiers" = true) :
    node.has "declaration" = false := by
  subst own
  have kind : node.kind = original.kind := by
    apply stands.kind_eq
    · intro declaration
      rw [declaration] at known
      cases known
    · intro call
      rw [call] at known
      cases known
  have plain : original.kind ≠ "AssignmentPattern" := by
    intro pattern
    rw [kind, pattern] at known
    cases known
  have field : node.field "declaration" = original.field "declaration" :=
    (stands.fields "declaration").resolve_right fun declared => absurd declared.2 (by decide)
  rw [kind] at known
  unfold Node.emits at emits
  rw [if_neg Bool.false_ne_true, if_neg plain, known] at emits
  have lacks := (Bool.and_eq_true_iff.mp emits).2
  unfold Node.has Node.field? at lacks ⊢
  rw [field]
  simpa using lacks

/-- A way that comes to the place of a node ends there at a function declaration, or the
tasks of the node cover it. -/
theorem covers {options : Options} (table : options.substitutes = .builtIn) (isRoot : root.IsRoot)
    (stands : node.StandsFor root original) {position : Position} (readable : node.Readable)
    (silent : Silent (node.tasks options position))
    (heads : (Value.node root).Heads node.origin.steps target) :
    node.origin.steps = target ∧ node.kind = "FunctionDeclaration" ∨
      Covers (node.tasks options position) node.origin target := by
  cases known : Construct.ofKind? node.kind with
  | none =>
      unfold Node.tasks at silent
      rw [known] at silent
      exact absurd silent (Silent.not_report _)
  | some construct =>
      rw [node.tasks_eq known] at silent ⊢
      by_cases call : construct = .construction
      · subst call
        have copied : Covers (Part.construction.tasks options node position) node.origin target :=
          (Covers.of_visit (List.mem_singleton_self _) (List.mem_singleton_self _)
            heads.below).wanting
        exact .inr copied.left
      by_cases expression : construct = .functionExpression
      · subst expression
        exact .inr (.of_visit (List.mem_singleton_self _) (List.mem_singleton_self _) heads.below)
      have held : (Value.node root).descendant node.origin.steps = .node original := by
        rw [stands.origin]
        exact (stands.leads.descendant isRoot).1
      rcases heads.member held with rfl | ⟨name, emits, further, -⟩
      · left
        refine ⟨rfl, (stands.function.mp heads.function).resolve_right fun kind => ?_⟩
        rw [kind] at known
        cases known
        exact expression rfl
      · right
        have fields := stands.emitted isRoot known emits
        obtain ⟨part, listed, emitted⟩ := Construct.exists_part call expression name fields
        have covered := Part.covers table ((Node.readable_iff_parts known).mp readable part listed)
          (fun task inside => silent task (List.mem_flatMap.mpr ⟨part, listed, inside⟩))
          (stands.rooted isRoot known listed) emitted ?_ further
        · exact covered.mono fun task inside => List.mem_flatMap.mpr ⟨part, listed, inside⟩
        · rintro rfl rfl
          cases Construct.eq_exportDeclaration listed
          refine stands.lacks_declaration known ?_ emits
          rw [Bool.eq_false_iff]
          intro method
          have function := (stands.leads.isFunctionAt_iff isRoot).mpr
            (.inr (stands.origin ▸ method))
          rw [← stands.origin, stands.function] at function
          rcases function with kind | kind
          · rw [kind] at known
            cases known
          · rw [kind] at known
            cases known

end Node.StandsFor

/-! ## Everything is entered -/

/-- Whether a clean rendering of a node enters every function in an emitted position of
its regions. -/
def Node.EntersAll (root : Node) (options : Options) (node : Node) (position : Position) : Prop :=
  ∀ regions target region, root.HasRendered node regions → node.Readable → position.IsUsable →
    (render options (.node node) position).outline.IsClean → region ∈ regions →
    (Value.node root).Heads region.steps target →
      ∃ function ∈ (render options (.node node) position).functions, function.origin.steps = target

section

variable {root : Node} {options : Options} {target : List Step} {node : Node}
  {position : Position}

/-- A rendered value enters a function on the way to which it lies. -/
theorem entered_of_visit {tasks : List Task} (clean : (perform (render options) tasks).IsClean)
    {source : Source} {value : Value} {place : Position} {region : Origin}
    (safe : (Task.visit source value place).IsSafe) (held : .visit source value place ∈ tasks)
    (rendered : ∀ child, value = .node child →
      root.EntersAll options child place ∧ ∃ regions, region ∈ regions ∧ root.HasRendered child regions)
    (heads : (Value.node root).Heads region.steps target) :
    ∃ function ∈ (perform (render options) tasks).functions, function.origin.steps = target := by
  obtain ⟨⟨child, rfl, readable⟩, usable⟩ := safe
  obtain ⟨enters, regions, inside, stands⟩ := rendered child rfl
  have below := (perform_isClean_iff.mp clean).2 source _ place held
  obtain ⟨function, entered, there⟩ :=
    enters regions target region stands readable usable below inside heads
  refine ⟨function, perform_functions_of_mem clean held ?_, there⟩
  rwa [perform_visit_functions]

variable (children : ∀ source child place, .visit source (.node child) place ∈
  node.tasks options position → root.EntersAll options child place)
include children

/-- A side of an assignment enters every function on the way to which it lies. -/
theorem Node.side_entersAll (readable : node.Readable) (usable : position.IsUsable)
    (clean : (perform (render options) (node.tasks options position)).IsClean) {name : String}
    {place : Position} {value : Value} {origin : Origin}
    (held : .visit (.field name) value place ∈ node.tasks options position)
    (placed : value.StandsAt root origin) (heads : (Value.node root).Heads origin.steps target) :
    ∃ function ∈ (perform (render options) (node.tasks options position)).functions,
      function.origin.steps = target := by
  refine entered_of_visit clean (Node.tasks_safe options readable usable _ held) held ?_ heads
  rintro child rfl
  obtain ⟨stands, rfl⟩ := placed child rfl
  exact ⟨children _ child _ held, _, List.mem_singleton_self _, .standing stands⟩

/-- A node of a tree enters every function on the way to which it lies. -/
theorem Node.StandsFor.entersAll (table : options.substitutes = .builtIn) (isRoot : root.IsRoot)
    {original : Node} (stands : node.StandsFor root original) (readable : node.Readable)
    (usable : position.IsUsable)
    (clean : (perform (render options) (node.tasks options position)).IsClean)
    (heads : (Value.node root).Heads node.origin.steps target) :
    ∃ function ∈ (perform (render options) (node.tasks options position)).functions,
      function.origin.steps = target := by
  have silent := (perform_isClean_iff.mp clean).1
  rcases stands.covers table isRoot readable silent heads with ⟨there, kind⟩ | covers
  · have known : Construct.ofKind? node.kind = some .functionDeclaration := by
      rw [kind]
      rfl
    have held : .enter node ∈ node.tasks options position := by
      rw [node.tasks_eq known]
      exact List.mem_flatMap.mpr ⟨.entry, by decide, List.mem_singleton_self _⟩
    exact ⟨node, perform_functions_of_mem clean held (List.mem_singleton_self _), there⟩
  · obtain ⟨source, value, place, held, region, inside, through⟩ := covers
    have safe := Node.tasks_safe options readable usable _ held
    refine entered_of_visit clean safe held ?_ ⟨through, heads.function, heads.emitted⟩
    rintro child rfl
    obtain ⟨construct, known, part, listed, provided⟩ := Node.visit_provided held
    exact ⟨children source child place held, _, inside,
      provided.hasRendered isRoot stands known listed⟩

end

/-- A clean rendering enters every function in an emitted position, by induction on what is
visited. -/
theorem Node.entersAll {root : Node} {options : Options} (table : options.substitutes = .builtIn)
    (isRoot : root.IsRoot) (node : Node) (position : Position) :
    root.EntersAll options node position := by
  induction node, position using Node.visit_induction options with
  | step node position children =>
      intro regions target region rendered readable usable clean inside heads
      rw [render_functions]
      rw [render_outline, boundary_isClean_iff] at clean
      cases rendered with
      | standing stands =>
          cases List.mem_singleton.mp inside
          exact stands.entersAll children table isRoot readable usable clean heads
      | @assignment function first second left right placed placedToo apart =>
          have silent := (perform_isClean_iff.mp clean).1
          generalize assigned : Rule.defaultAssignment function first second = assignment at *
          have known : Construct.ofKind? assignment.kind = some .binary := by
            rw [← assigned]
            rfl
          have parts (part : Part) (listed : part ∈ Construct.binary.parts) :
              part.tasks options assignment position ⊆ assignment.tasks options position := by
            rw [assignment.tasks_eq known]
            exact fun task held => List.mem_flatMap.mpr ⟨part, listed, held⟩
          have sides (name : String) (place : Position) (part : Part)
              (listed : part ∈ Construct.binary.parts)
              (tasks : part.tasks options assignment position =
                Task.needed assignment name (Task.child name place)) :
              .visit (.field name) (assignment.field name) place ∈ assignment.tasks options position := by
            have held := parts part listed
            rw [tasks] at held
            obtain ⟨value, found, -⟩ := Silent.needed_iff.mp fun task inside => silent task (held inside)
            rw [Task.needed_of_found found] at held
            rw [Node.field_of_field? found]
            exact held (List.mem_singleton_self _)
          rcases List.mem_cons.mp inside with rfl | last
          · refine Node.side_entersAll children readable usable clean
              (sides "left" (.of assignment (assignment.occurrence "left")) (.side "left") (by decide)
                rfl) ?_ heads
            rw [← assigned]
            exact placed
          · cases List.mem_singleton.mp last
            refine Node.side_entersAll children readable usable clean
              (sides "right" (.of assignment (assignment.occurrence "right")) (.side "right")
                (by decide) rfl) ?_ heads
            rw [← assigned]
            exact placedToo

/-! ## Sessions -/

/-- Whether a node is the declaration under which a function is reported: it stands at the
place of the function and has its fields, apart from the name. -/
structure Node.IsDeclarationOf (declaration function : Node) : Prop where
  kind : declaration.kind = "FunctionDeclaration"
  origin : declaration.origin = function.origin
  fields : ∀ name, name ≠ "id" → declaration.field name = function.field name

theorem Ordered.declarations {root : Node} (isRoot : root.IsRoot) {regions : List Origin}
    {functions : List Node} (ordered : Ordered root regions functions) :
    ∀ declaration ∈ functions, ∃ function,
      (Value.node root).descendant declaration.origin.steps = .node function ∧
      (Value.node root).isFunctionAt declaration.origin.steps = true ∧
      declaration.IsDeclarationOf function := by
  intro declaration entered
  obtain ⟨kind, original, stands⟩ := ordered.declared declaration entered
  refine ⟨original, ?_, stands.function.mpr (.inl kind), kind, stands.origin, fun name other => ?_⟩
  · rw [stands.origin]
    exact (stands.leads.descendant isRoot).1
  · exact (stands.fields name).resolve_right fun declared => other declared.2

namespace Session

/-- A recorder that lists functions has them all. -/
theorem observeAll_listing (session : Session) (events : List Event) {entered : List Node}
    (listing : session.recorder = .listing entered) :
    (session.observeAll events).2 = .ok () ∧
      (session.observeAll events).1.recorder =
        .listing (entered ++ events.filterMap Event.function?) := by
  induction events generalizing session entered with
  | nil => exact ⟨rfl, by rw [List.filterMap_nil, List.append_nil]; exact listing⟩
  | cons event rest ih =>
      cases event with
      | reported diagnostic =>
          exact ih { session with log := session.log ++ [diagnostic] } listing
      | entered function =>
          obtain ⟨options, log, recorder⟩ := session
          subst listing
          obtain ⟨fine, last⟩ := ih ⟨options, log, .listing (entered ++ [function])⟩ rfl
          refine ⟨fine, last.trans ?_⟩
          simp [Event.function?]

/-- Each function is reported exactly once and in the order of bodies. Whatever the tree
is, a run tells of declarations of functions of the tree only, of no function twice, and of
each function before those in its body and after those in its parameters and defaults. If
the tree is readable and the run reports nothing, it tells of every function in an emitted
position. -/
theorem functions_reported_once {options : Options} (table : options.substitutes = .builtIn)
    (log : List Diagnostic) {form : TreeForm} {tree : Nat} {source : Json} {root : Node}
    (converted : Value.ofJson form tree source = .node root) (program : root.kind = "Program")
    (found : String) :
    ∃ entered,
      (generate ⟨options, log, .listing []⟩ (.node root) found).1.recorder = .listing entered ∧
      (entered.map Node.origin).Nodup ∧
      (∀ declaration ∈ entered, ∃ function,
        (Value.node root).descendant declaration.origin.steps = .node function ∧
        (Value.node root).isFunctionAt declaration.origin.steps = true ∧
        declaration.IsDeclarationOf function) ∧
      entered.Pairwise Node.Precedes ∧
      (root.Readable → (generate ⟨options, log, .listing []⟩ (.node root) found).1.log = log →
        ∀ steps, (Value.node root).isFunctionAt steps = true →
          (Value.node root).isEmitted steps = true →
            (entered.map Node.origin).count ⟨tree, steps⟩ = 1) := by
  obtain ⟨isRoot, origin⟩ := Node.isRoot_of_ofJson converted
  generalize opened : Session.mk options log (.listing []) = session
  have same : session.options = options := by
    rw [← opened]
  have listing : session.recorder = .listing [] := by
    rw [← opened]
  have logged : session.log = log := by
    rw [← opened]
  obtain ⟨fine, last⟩ :=
    session.observeAll_listing (PhpRendering.render options (.node root) {}).events listing
  have ordered := isRoot.ordered options {}
  have distinct : ((PhpRendering.render options (.node root) {}).functions.map Node.origin).Nodup :=
    List.pairwise_map.mpr (ordered.precedes.imp fun precedes => precedes.distinct)
  rw [generate_program program]
  unfold Session.render
  rw [same, run_of_observed fine]
  refine ⟨_, last, distinct, ordered.declarations isRoot, ordered.precedes, ?_⟩
  intro readable unchanged steps function emitted
  have usable : Position.IsUsable {} := ⟨rfl, ImportSource.noConfusion⟩
  have clean : (PhpRendering.render options (.node root) {}).outline.IsClean := by
    obtain ⟨text, rendered⟩ := (render_isSafe options readable usable).outcome
    refine ⟨?_, (), congrArg (Except.map fun _ => ()) rendered⟩
    rw [observeAll_log fine, logged, List.append_right_eq_self] at unchanged
    exact Event.filterMap_diagnostic?_eq_nil_iff.mp unchanged
  have own : (Value.node root).isMethodPlace root.origin.steps = false := by
    rw [isRoot.top]
    rfl
  have heads : (Value.node root).Heads root.origin.steps steps := by
    rw [isRoot.top]
    exact ⟨List.nil_suffix, function, emitted⟩
  obtain ⟨declaration, entered, there⟩ :=
    Node.entersAll table isRoot root {} _ steps _ (.standing (Node.Leads.refl.standsFor isRoot own))
      readable usable clean (List.mem_singleton_self _) heads
  refine List.nodup_iff_count_eq_one.mp distinct _ (List.mem_map.mpr ⟨declaration, entered, ?_⟩)
  obtain ⟨-, original, stands⟩ := ordered.declared declaration entered
  have sameTree : declaration.origin.tree = tree := by
    rw [stands.origin, (stands.leads.descendant isRoot).2, origin]
  rw [← there, ← sameTree]

end Session

/-- A function whose parameter has a function as its default and whose body holds a class
with one method. -/
def reportedSource : Json :=
  let node (kind : String) (fields : List (String × Json)) : Json :=
    .object (("type", .text kind) :: fields)
  let identifier (name : String) := node "Identifier" [("name", .text name)]
  let block (statements : List Json) := node "BlockStatement" [("body", .array statements)]
  let function := node "FunctionExpression" [("params", .array []), ("body", block [])]
  let method := node "MethodDefinition" [("key", identifier "run"), ("value", function)]
  node "Program" [("body", .array
    [node "FunctionDeclaration"
      [("id", identifier "f"),
        ("params", .array
          [node "AssignmentPattern" [("left", identifier "x"), ("right", function)]]),
        ("body", block
          [node "ClassDeclaration"
            [("id", identifier "C"), ("body", node "ClassBody" [("body", .array [method])])]])]])]

def reportedPlaces : List (List Step) :=
  let outer : List Step := [.item 0, .member "body"]
  [[.member "right", .item 0, .member "params"] ++ outer, outer,
    [.member "value", .item 0, .member "body", .member "body", .item 0, .member "body",
      .member "body"] ++ outer]

theorem reportedSource_reported :
    ∃ root entered, Value.ofJson .data 0 reportedSource = .node root ∧
      (Session.generate ⟨{}, [], .listing []⟩ (.node root) "Node").1.recorder = .listing entered ∧
      entered.map (fun declaration => declaration.origin.steps) = reportedPlaces ∧
      ∀ steps ∈ reportedPlaces, (entered.map Node.origin).count ⟨0, steps⟩ = 1 := by
  obtain ⟨root, converted⟩ : ∃ root, Value.ofJson .data 0 reportedSource = .node root := ⟨_, rfl⟩
  obtain ⟨entered, listing, -, -, -, complete⟩ :=
    @Session.functions_reported_once {} rfl [] _ _ _ _ converted (by cases converted; rfl) "Node"
  refine ⟨root, entered, converted, listing, ?_, ?_⟩
  · cases converted
    cases listing
    rfl
  · intro steps listed
    cases converted
    refine complete (Node.readable_of_check 8 (by decide)) rfl steps ?_ ?_
    · revert steps
      decide
    · revert steps
      decide

end PhpRendering
