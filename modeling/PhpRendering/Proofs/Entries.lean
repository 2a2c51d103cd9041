import PhpRendering.Proofs.Nesting

/-!
# Entries of a tree

A function is entered after its parameters, outside itself, and before its body, inside
itself. Everything else enters what the regions of its sources enter, one after the other;
copies and assignments make no difference. So a property that goes through apart regions
and through declarations holds of the entries of a whole tree: they are nested like the
bodies of its functions.
-/

namespace PhpRendering

/-! ## Entries of a node -/

/-- The places below which everything stands that a task of a node renders. -/
def Task.regions (origin : Origin) : Task → List Origin
  | .visit source _ _ => source.regions origin
  | _ => []

/-- Only renderings have regions. -/
theorem Task.visit_of_mem_regions {task : Task} {origin region : Origin}
    (held : region ∈ task.regions origin) :
    ∃ source value place, task = .visit source value place ∧ region ∈ source.regions origin := by
  cases task with
  | visit source value place => exact ⟨source, value, place, rfl, held⟩
  | enter function => cases held
  | report diagnostic => cases held
  | stop fault => cases held

theorem Task.regions_apart {first second : Task} (apart : first.Apart second) (origin : Origin) :
    ∀ region ∈ first.regions origin, ∀ other ∈ second.regions origin, region.Apart other := by
  intro region held other heldToo
  obtain ⟨source, value, place, rfl, among⟩ := Task.visit_of_mem_regions held
  obtain ⟨otherSource, _, _, rfl, amongToo⟩ := Task.visit_of_mem_regions heldToo
  exact apart origin region among other amongToo

theorem Task.regions_within (task : Task) (origin : Origin) :
    ∀ region ∈ task.regions origin, region.IsWithin origin := by
  intro region held
  obtain ⟨source, value, place, rfl, among⟩ := Task.visit_of_mem_regions held
  by_cases copy : source = .copy
  · subst copy
    rw [List.mem_singleton.mp among]
    exact .refl origin
  · obtain ⟨name, _, within⟩ := source.regions_within copy origin region among
    exact within.trans (.down _ _)

/-- A task in some fields renders what stands below them. -/
theorem Task.IsIn.regions_within {task : Task} {fields : List String} (isIn : task.IsIn fields)
    (origin : Origin) : ∀ region ∈ task.regions origin,
      ∃ name ∈ fields, region.IsWithin (origin.down (.member name)) := by
  intro region held
  obtain ⟨source, value, place, rfl, among⟩ := Task.visit_of_mem_regions held
  obtain ⟨name, listed, within⟩ := source.regions_within isIn.1 origin region among
  exact ⟨name, isIn.2 name listed, within⟩

/-- A property of functions that are entered inside the functions at some places and in
some regions of a tree. It holds of all that is rendered when it goes through apart
regions and through declarations. -/
structure Entering (root : Node) (Q : List Origin → List Origin → List Node → Prop) : Prop where
  nil : ∀ around regions, Q around regions []
  mono : ∀ {around regions others functions}, Q around regions functions →
    (∀ region ∈ regions, ∃ other ∈ others, region.IsWithin other) → Q around others functions
  append : ∀ {around regions others functions later}, Q around regions functions →
    Q around others later → (∀ region ∈ regions, ∀ other ∈ others, region.Apart other) →
      Q around (regions ++ others) (functions ++ later)
  declaration : ∀ {around functions inner} {function : Node},
    function.kind = "FunctionDeclaration" → function.IsFunctionOf root →
    (Value.node root).placesAround function.origin = around →
    Q around [function.origin.down (.member "params"), function.origin.down (.member "defaults")]
      functions →
    Q (function.origin :: around) [function.origin.down (.member "body")] inner →
      Q around [function.origin] (functions ++ function :: inner)

/-- Whether a property of entered functions and regions holds of what a node has rendered. -/
def Node.Enters (root : Node) (Q : List Origin → List Origin → List Node → Prop)
    (options : Options) (node : Node) (position : Position) : Prop :=
  ∀ regions around, root.HasRendered node regions →
    (∀ region ∈ regions, (Value.node root).placesAround region = around) →
      Q around regions (render options (.node node) position).functions

namespace Entering

variable {root : Node} {Q : List Origin → List Origin → List Node → Prop}
  {around regions others : List Origin}

/-- What an emission enters before another one that may not be reached. -/
theorem andThen (entering : Entering root Q) {ε α β : Type} {first : Emission ε α}
    {next : α → Emission ε β} (start : Q around regions first.functions)
    (follow : ∀ result, Q around others (next result).functions)
    (apart : ∀ region ∈ regions, ∀ other ∈ others, region.Apart other) :
    Q around (regions ++ others) (first.andThen next).functions := by
  rcases first.functions_andThen next with same | ⟨result, -, same⟩
  · rw [same]
    exact entering.mono start fun region held => ⟨region, List.mem_append_left _ held, .refl region⟩
  · rw [same]
    exact entering.append start (follow result) apart

/-- Tasks with regions apart from each other, one after another. -/
theorem perform (entering : Entering root Q) {render : Renderer} {tasks : List Task}
    (territory : Task → List Origin)
    (each : ∀ task ∈ tasks, Q around (territory task) (task.perform render).functions)
    (apart : tasks.Pairwise fun first second =>
      ∀ region ∈ territory first, ∀ other ∈ territory second, region.Apart other)
    (covered : ∀ task ∈ tasks, ∀ region ∈ territory task, ∃ other ∈ others, region.IsWithin other) :
    Q around others (PhpRendering.perform render tasks).functions := by
  have all : Q around (tasks.flatMap territory) (PhpRendering.perform render tasks).functions := by
    clear covered
    induction tasks with
    | nil => exact entering.nil around _
    | cons task rest ih =>
        obtain ⟨first, later⟩ := List.forall_mem_cons.mp each
        obtain ⟨separate, apartLater⟩ := List.pairwise_cons.mp apart
        rw [List.flatMap_cons]
        refine entering.andThen first (fun _ => ih later apartLater) fun region held other heldToo => ?_
        obtain ⟨next, listed, among⟩ := List.mem_flatMap.mp heldToo
        exact separate next listed region held other among
  refine entering.mono all fun region held => ?_
  obtain ⟨task, listed, among⟩ := List.mem_flatMap.mp held
  exact covered task listed region among

/-- Only nodes enter functions. -/
theorem visit (entering : Entering root Q) {options : Options} {source : Source} {value : Value}
    {place : Position}
    (each : ∀ child, value = .node child →
      Q around regions (render options (.node child) place).functions) :
    Q around regions ((Task.visit source value place).perform (render options)).functions := by
  rw [perform_visit_functions]
  cases node? : value.node? with
  | none =>
      rw [render_functions_of_other options node?]
      exact entering.nil around regions
  | some child =>
      cases value <;> cases node?
      exact each child rfl

end Entering

/-- Whether a source leads into the body of a function. -/
def Source.isBody : Source → Bool
  | .field name => name == "body"
  | .item name _ => name == "body"
  | _ => false

theorem Source.mem_fields_of_isBody {source : Source} (body : source.isBody = true) :
    "body" ∈ source.fields := by
  cases source with
  | field name =>
      cases beq_iff_eq.mp body
      exact List.mem_singleton_self _
  | item name index =>
      cases beq_iff_eq.mp body
      exact List.mem_singleton_self _
  | _ => cases body

/-- No other source leads into a body. -/
theorem Source.placesAround_eq {root : Value} {origin : Origin} {source : Source}
    (outside : source.isBody = true → root.isFunctionAt origin.steps = false) :
    ∀ region ∈ source.regions origin, root.placesAround region = root.placesAround origin := by
  have other {name : String} {place : Origin} (different : name ≠ "body") :
      root.placesAround (place.down (.member name)) = root.placesAround place :=
    Value.placesAround_member fun body => absurd body different
  cases source with
  | copy => exact List.forall_mem_singleton.mpr rfl
  | field name =>
      refine List.forall_mem_singleton.mpr (Value.placesAround_member fun body => ?_)
      exact outside (beq_iff_eq.mpr body)
  | item name index =>
      refine List.forall_mem_singleton.mpr ?_
      rw [Value.placesAround_item]
      exact Value.placesAround_member fun body => outside (beq_iff_eq.mpr body)
  | receiver =>
      refine List.forall_mem_singleton.mpr ?_
      rw [other (by decide), other (by decide)]
  | declarator index =>
      refine List.forall_mem_singleton.mpr ?_
      rw [Value.placesAround_item, other (by decide), other (by decide)]
  | method => exact List.forall_mem_singleton.mpr (other (by decide))
  | pattern index =>
      refine List.forall_mem_cons.mpr ⟨?_, List.forall_mem_singleton.mpr ?_⟩
      · rw [other (by decide), Value.placesAround_item, other (by decide)]
      · rw [other (by decide), Value.placesAround_item, other (by decide)]
  | defaulted index =>
      refine List.forall_mem_cons.mpr ⟨?_, List.forall_mem_singleton.mpr ?_⟩
      · rw [Value.placesAround_item, other (by decide)]
      · rw [Value.placesAround_item, other (by decide)]

namespace Node.StandsFor

variable {root node original : Node} {Q : List Origin → List Origin → List Node → Prop}
  {construct : Construct} {options : Options} {position : Position} {around : List Origin}
  (entering : Entering root Q) (isRoot : root.IsRoot)
  (stands : node.StandsFor root original)
  (inside : (Value.node root).placesAround node.origin = around)
  (children : ∀ source child place, .visit source (.node child) place ∈ node.tasks options position →
    root.Enters Q options child place)

include entering isRoot stands children

/-- What a task renders has the property in the regions of its source, in whatever
functions these lie. -/
theorem visit_enters (known : Construct.ofKind? node.kind = some construct) {part : Part}
    (listed : part ∈ construct.parts) {source : Source} {value : Value} {place : Position}
    (held : .visit source value place ∈ part.tasks options node position)
    (same : ∀ region ∈ source.regions node.origin,
      (Value.node root).placesAround region = around) :
    Q around (source.regions node.origin)
      ((Task.visit source value place).perform (render options)).functions := by
  have provided := part.tasks_provided options node position _ held
  have among : .visit source value place ∈ node.tasks options position := by
    rw [Node.tasks_eq known]
    exact List.mem_flatMap.mpr ⟨part, listed, held⟩
  apply entering.visit
  rintro child rfl
  exact children source child place among _ around
    (Source.Provides.hasRendered isRoot stands known listed provided) same

include inside

/-- A task that enters no body has the property in the regions of its source. -/
theorem task_enters (known : Construct.ofKind? node.kind = some construct) {part : Part}
    (listed : part ∈ construct.parts) (plain : part ≠ .entry) {task : Task}
    (held : task ∈ part.tasks options node position)
    (outside : ∀ source value place, task = .visit source value place → source.isBody = true →
      (Value.node root).isFunctionAt node.origin.steps = false) :
    Q around (task.regions node.origin) (task.perform (render options)).functions := by
  cases task with
  | enter function =>
      have provided := part.tasks_provided options node position _ held
      exact absurd provided.1 plain
  | report diagnostic => exact entering.nil around _
  | stop fault => exact entering.nil around _
  | visit source value place =>
      refine stands.visit_enters entering isRoot children known listed held fun region among => ?_
      rw [← inside]
      exact Source.placesAround_eq (outside source value place rfl) region among

/-- A node that is no function has the property at its place. -/
theorem plain_enters (known : Construct.ofKind? node.kind = some construct)
    (other : construct ≠ .functionDeclaration) :
    Q around [node.origin]
      (perform (render options) (construct.tasks options node position)).functions := by
  have outside : ∀ source value place,
      .visit source value place ∈ construct.tasks options node position → source.isBody = true →
      (Value.node root).isFunctionAt node.origin.steps = false := by
    intro source value place visits body
    rw [Bool.eq_false_iff]
    intro function
    rcases stands.function.mp function with kind | kind
    · rw [kind] at known
      cases known
      exact other rfl
    · rw [kind] at known
      cases known
      cases List.mem_singleton.mp visits
      cases body
  apply entering.perform (Task.regions node.origin)
  · intro task held
    obtain ⟨part, listed, among⟩ := List.mem_flatMap.mp held
    refine stands.task_enters entering isRoot inside children known listed ?_ among ?_
    · rintro rfl
      exact other (Construct.eq_functionDeclaration listed)
    · rintro source value place rfl
      exact outside source value place held
  · exact (construct.pairwise_tasks options node position).imp
      fun apart => Task.regions_apart apart node.origin
  · intro task _ region among
    exact ⟨node.origin, List.mem_singleton_self _, task.regions_within node.origin region among⟩

/-- The parameters of a function have the property outside its body. -/
theorem parameters_enters (known : Construct.ofKind? node.kind = some .functionDeclaration) :
    Q around [node.origin.down (.member "params"), node.origin.down (.member "defaults")]
      (perform (render options) (Part.parameters.tasks options node position)).functions := by
  have listed : Part.parameters ∈ Construct.functionDeclaration.parts := by decide
  have isIn : ∀ task ∈ Part.parameters.tasks options node position,
      task.IsIn Part.parameters.fields := Part.tasks_isIn options node position rfl
  apply entering.perform (Task.regions node.origin)
  · intro task held
    refine stands.task_enters entering isRoot inside children known listed (by decide) held ?_
    rintro source value place rfl body
    exact absurd ((isIn _ held).2 _ (Source.mem_fields_of_isBody body)) (by decide)
  · exact (Part.parameters.pairwise_tasks options node position).imp
      fun apart => Task.regions_apart apart node.origin
  · intro task held region among
    obtain ⟨name, field, within⟩ := (isIn task held).regions_within node.origin region among
    refine ⟨node.origin.down (.member name), ?_, within⟩
    rcases List.mem_cons.mp field with rfl | last
    · exact List.mem_cons_self ..
    · rw [List.mem_singleton.mp last]
      exact List.mem_cons_of_mem _ (List.mem_singleton_self _)

/-- The body of a function has the property inside the function. -/
theorem body_enters (known : Construct.ofKind? node.kind = some .functionDeclaration) :
    Q (node.origin :: around) [node.origin.down (.member "body")]
      (perform (render options) ((Part.text "body").tasks options node position)).functions := by
  have kind : node.kind = "FunctionDeclaration" := Construct.kind_eq known (by decide)
  have listed : Part.text "body" ∈ Construct.functionDeclaration.parts := by decide
  have fields : ∀ task ∈ (Part.text "body").tasks options node position,
      (∃ fault, task = .stop fault) ∨ ∃ value, task = .visit (.field "body") value (.within node) :=
    Task.forall_needed (fun _ => .inl ⟨_, rfl⟩) fun value _ =>
      Task.forall_wanting (fun _ => .inl ⟨_, rfl⟩) (List.forall_mem_singleton.mpr (.inr ⟨value, rfl⟩))
  have deeper : (Value.node root).placesAround (node.origin.down (.member "body")) =
      node.origin :: around := by
    rw [← inside]
    exact Value.placesAround_body (stands.function.mpr (.inl kind))
  apply entering.perform (Task.regions node.origin)
  · intro task held
    rcases fields task held with ⟨fault, rfl⟩ | ⟨value, rfl⟩
    · exact entering.nil _ _
    · exact stands.visit_enters entering isRoot children known listed held
        (List.forall_mem_singleton.mpr deeper)
  · exact ((Part.text "body").pairwise_tasks options node position).imp
      fun apart => Task.regions_apart apart node.origin
  · intro task held region among
    rcases fields task held with ⟨fault, rfl⟩ | ⟨value, rfl⟩
    · cases among
    · exact ⟨region, among, .refl region⟩

/-- Inside a function nothing but its body has functions to enter. -/
theorem inner_enters (known : Construct.ofKind? node.kind = some .functionDeclaration) :
    Q (node.origin :: around) [node.origin.down (.member "body")]
      (perform (render options) (Part.parameterTexts.tasks options node position ++
        (Part.text "body").tasks options node position)).functions := by
  have nothing : Q (node.origin :: around) []
      (perform (render options) (Part.parameterTexts.tasks options node position)).functions := by
    simp only [Part.tasks, Task.wanting]
    split
    · exact entering.nil _ _
    · exact entering.nil _ _
  rw [perform_append]
  exact entering.andThen nothing
    (fun _ => stands.body_enters entering isRoot inside children known)
    fun _ held => absurd held List.not_mem_nil

/-- A function has the property at its place: what its parameters enter, then the
function itself, then what its body enters. -/
theorem declaration_enters (known : Construct.ofKind? node.kind = some .functionDeclaration) :
    Q around [node.origin]
      (perform (render options)
        (Construct.functionDeclaration.tasks options node position)).functions := by
  have kind : node.kind = "FunctionDeclaration" := Construct.kind_eq known (by decide)
  have first := stands.parameters_enters entering isRoot inside children known
  have second := stands.inner_enters entering isRoot inside children known
  have placed : node.IsFunctionOf root :=
    ⟨⟨original, stands⟩, stands.function.mpr (.inl kind)⟩
  have tasks : Construct.functionDeclaration.tasks options node position =
      Part.parameters.tasks options node position ++
        (Task.needed node "body" (fun _ => []) ++
          .enter node :: (Part.parameterTexts.tasks options node position ++
            (Part.text "body").tasks options node position)) := by
    simp [Construct.tasks, Construct.parts, Part.tasks]
  have alone : Q around [node.origin]
      (perform (render options) (Part.parameters.tasks options node position)).functions := by
    refine entering.mono first fun region held => ⟨node.origin, List.mem_singleton_self _, ?_⟩
    rcases List.mem_cons.mp held with rfl | last
    · exact .down _ _
    · rw [List.mem_singleton.mp last]
      exact .down _ _
  rw [tasks, perform_append]
  rcases Emission.functions_andThen _ _ with same | ⟨result, -, same⟩
  · rw [same]
    exact alone
  · rw [same]
    unfold Task.needed Node.require
    cases node.field? "body" with
    | none => simpa [perform_stop] using alone
    | some value => exact entering.declaration kind placed inside first second

end Node.StandsFor

/-! ## Entries of a tree -/

section

variable {root : Node} {Q : List Origin → List Origin → List Node → Prop}
  (entering : Entering root Q) {options : Options} {around : List Origin}
include entering

/-- A side of an assignment has the property where its value stands. -/
theorem Node.side_enters {node : Node} {name : String} {place : Position} {origin : Origin}
    (placed : (node.field name).StandsAt root origin)
    (inside : (Value.node root).placesAround origin = around)
    (children : ∀ child, .visit (.field name) (.node child) place ∈
      Task.needed node name (Task.child name place) → root.Enters Q options child place) :
    Q around [origin]
      (perform (render options) (Task.needed node name (Task.child name place))).functions := by
  unfold Task.needed Node.require at children ⊢
  cases found : node.field? name with
  | none => exact entering.nil around _
  | some value =>
      rw [found] at children
      rw [Node.field_of_field? found] at placed
      apply entering.perform fun _ => [origin]
      · refine List.forall_mem_singleton.mpr (entering.visit ?_)
        rintro child rfl
        obtain ⟨stands, rfl⟩ := placed child rfl
        exact children child (List.mem_singleton_self _) _ around (.standing stands)
          (List.forall_mem_singleton.mpr inside)
      · exact List.pairwise_singleton _ _
      · intro _ _ region held
        exact ⟨region, held, .refl region⟩

/-- An assignment made of two values of a tree has the property where these stand. -/
theorem Node.assignment_enters {position : Position} {function : Node} {target default : Value}
    {left right : Origin} (first : target.StandsAt root left) (second : default.StandsAt root right)
    (apart : left.Apart right)
    (same : ∀ region ∈ [left, right], (Value.node root).placesAround region = around)
    (children : ∀ source child place, .visit source (.node child) place ∈
      (Rule.defaultAssignment function target default).tasks options position →
        root.Enters Q options child place) :
    Q around [left, right]
      (perform (render options)
        ((Rule.defaultAssignment function target default).tasks options position)).functions := by
  obtain ⟨insideLeft, later⟩ := List.forall_mem_cons.mp same
  have insideRight := later right (List.mem_singleton_self _)
  generalize assigned : Rule.defaultAssignment function target default = assignment at children ⊢
  have tasks : assignment.tasks options position =
      Task.needed assignment "left"
          (Task.child "left" (.of assignment (assignment.occurrence "left"))) ++
        (Task.needed assignment "right"
            (Task.child "right" (.of assignment (assignment.occurrence "right"))) ++
          Task.needed assignment "operator" fun _ => []) := by
    rw [← assigned]
    rfl
  have start : Q around [left] (perform (render options)
      (Task.needed assignment "left"
        (Task.child "left" (.of assignment (assignment.occurrence "left"))))).functions := by
    refine Node.side_enters entering ?_ insideLeft fun child held => children (.field "left") child _ ?_
    · rw [← assigned]
      exact first
    · rw [tasks]
      exact List.mem_append_left _ held
  have rest : Q around [right] (perform (render options)
      (Task.needed assignment "right"
        (Task.child "right" (.of assignment (assignment.occurrence "right"))))).functions := by
    refine Node.side_enters entering ?_ insideRight fun child held => children (.field "right") child _ ?_
    · rw [← assigned]
      exact second
    · rw [tasks]
      exact List.mem_append_right _ (List.mem_append_left _ held)
  have nothing : Q around [] (perform (render options)
      (Task.needed assignment "operator" fun _ => [])).functions := by
    rw [← assigned]
    exact entering.nil around []
  rw [tasks, perform_append, perform_append]
  refine entering.andThen start (fun _ => entering.andThen rest (fun _ => nothing) ?_) ?_
  · exact fun _ _ => List.forall_mem_nil _
  · intro region held other heldToo
    cases List.mem_singleton.mp held
    cases List.mem_singleton.mp heldToo
    exact apart

/-- Whatever is rendered for some places of a tree has the property there. -/
theorem Node.enters (isRoot : root.IsRoot) (options : Options) (node : Node)
    (position : Position) : root.Enters Q options node position := by
  induction node, position using Node.visit_induction options with
  | step node position children =>
      intro regions around rendered same
      rw [render_functions]
      cases rendered with
      | assignment function first second apart =>
          exact Node.assignment_enters entering first second apart same children
      | standing stands =>
          have inside := same node.origin (List.mem_singleton_self _)
          cases known : Construct.ofKind? node.kind with
          | none =>
              unfold Node.tasks
              rw [known]
              exact entering.nil around _
          | some construct =>
              rw [Node.tasks_eq known]
              by_cases declaration : construct = .functionDeclaration
              · subst declaration
                exact stands.declaration_enters entering isRoot inside children known
              · exact stands.plain_enters entering isRoot inside children known declaration

/-- The functions that are entered for a whole tree. -/
theorem Node.IsRoot.enters (isRoot : root.IsRoot) (options : Options) (position : Position) :
    Q [] [root.origin] (render options (.node root) position).functions := by
  have own : (Value.node root).isMethodPlace root.origin.steps = false := by
    rw [isRoot.top]
    rfl
  refine Node.enters entering isRoot options root position _ _
    (.standing (Node.Leads.refl.standsFor isRoot own)) (List.forall_mem_singleton.mpr ?_)
  unfold Value.placesAround
  rw [isRoot.top]
  rfl

end

theorem Settled.entering (root : Node) : Entering root (Settled root) where
  nil := Settled.nil root
  mono := Settled.mono
  append := Settled.append
  declaration _ placed inside first second := first.declaration placed inside second

/-- The functions that are entered for a tree come in the order of the tree. -/
theorem Node.IsRoot.settled {root : Node} (isRoot : root.IsRoot) (options : Options)
    (position : Position) :
    Settled root [] [root.origin] (render options (.node root) position).functions :=
  isRoot.enters (Settled.entering root) options position

end PhpRendering
