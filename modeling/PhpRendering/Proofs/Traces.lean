import PhpRendering.Proofs.Dropped
import PhpRendering.Proofs.ScopeNesting

/-!
# Traces of nodes that are left out

A node that is left out leaves a trace in the record of scopes exactly when something that
its rule had rendered before it came to the missing field entered a function. Rules that
read what they require first leave none.
-/

namespace PhpRendering

/-! ## What was rendered before a missing field -/

/-- Nothing is done after a task that ends the rule. -/
theorem reached_append_of_stop {tasks : List Task} {fault : Fault} (held : .stop fault ∈ tasks)
    (rest : List Task) : reached (tasks ++ rest) = reached tasks := by
  induction tasks with
  | nil => cases held
  | cons task later ih =>
      unfold reached at ih ⊢
      rw [List.cons_append, List.takeWhile_cons, List.takeWhile_cons]
      rcases List.mem_cons.mp held with rfl | inside
      · rfl
      · rw [ih inside]

/-- Rules that stop at a missing field have entered what their tasks up to there enter. -/
theorem perform_functions_of_missing {render : Renderer} {tasks : List Task} {missing : Missing}
    (outcome : (perform render tasks).outcome = .error (.missing missing)) :
    (perform render tasks).functions =
      (reached tasks).flatMap fun task => (task.perform render).functions := by
  induction tasks with
  | nil => cases outcome
  | cons task rest ih =>
      rcases Emission.andThen_outcome_error.mp outcome with here | ⟨done, later⟩
      · rw [Task.perform_ne_missing here]
        rfl
      · have goesOn : task.isStop = false := by
          cases task with
          | stop fault => cases done
          | _ => rfl
        have split : reached (task :: rest) = task :: reached rest := by
          simp [reached, goesOn]
        rw [split, List.flatMap_cons, ← ih later, perform]
        generalize task.perform render = first at done
        obtain ⟨events, result⟩ := first
        cases done
        exact List.filterMap_append

/-! ## Tasks that miss nothing -/

/-- Tasks that do not stop at a missing field. -/
def MissNothing (tasks : List Task) : Prop :=
  ∀ task ∈ tasks, ∀ missing, task ≠ .stop (.missing missing)

namespace MissNothing

variable {tasks : List Task} {node : Node} {field : String}

theorem nil : MissNothing [] :=
  List.forall_mem_nil _

theorem wanting {fits : Bool} (fine : MissNothing tasks) : MissNothing (Task.wanting fits tasks) :=
  Task.forall_wanting (fun _ => nofun) fine

theorem visit (source : Source) (value : Value) (place : Position) :
    MissNothing [.visit source value place] :=
  List.forall_mem_singleton.mpr nofun

theorem child (place : Position) (value : Value) : MissNothing (Task.child field place value) :=
  visit _ value place

theorem text (place : Position) (value : Value) : MissNothing (Task.text field place value) :=
  (child place value).wanting

theorem append {first rest : List Task} (start : MissNothing first) (later : MissNothing rest) :
    MissNothing (first ++ rest) :=
  List.forall_mem_append.mpr ⟨start, later⟩

theorem unlessUnsupported (fine : MissNothing tasks) :
    MissNothing (Task.unlessUnsupported node tasks) := by
  unfold Task.unlessUnsupported
  split
  · exact List.forall_mem_singleton.mpr nofun
  · exact fine

theorem optional {next : Value → List Task} (rest : ∀ value, MissNothing (next value)) :
    MissNothing (Task.optional node field next) :=
  Task.forall_optional fun value _ => rest value

theorem shaped {α : Type} {result : Except Crash α} {next : α → List Task}
    (rest : ∀ value, MissNothing (next value)) : MissNothing (Task.shaped result next) :=
  Task.forall_shaped (fun _ _ => nofun) fun value _ => rest value

theorem items (source : Nat → Source) (place : Nat → Position) (skips : Bool) (values : List Value) :
    MissNothing (Task.items source place skips values) :=
  Task.forall_items fun _ _ _ _ => nofun

theorem texts (source : Nat → Source) (place : Position) (values : List Value) :
    MissNothing (Task.texts source place values) :=
  Task.forall_texts fun _ _ _ => (visit _ _ _).wanting

theorem sequence (list : Value) : MissNothing (Task.sequence node field list) :=
  (shaped fun _ => items _ _ _ _).wanting

theorem optionalItems (skips : Bool) : MissNothing (Task.optionalItems node field skips) :=
  shaped fun _ => items _ _ _ _

theorem continued (position : Position) (callee : Value) :
    MissNothing (Task.continued node position callee) := by
  obtain ⟨rest, crashes, same⟩ := Task.continued_eq node position callee
  rw [same]
  refine append (optionalItems false).wanting fun task held => ?_
  obtain ⟨crash, rfl⟩ := crashes task held
  exact fun _ => nofun

end MissNothing

/-! ## Nodes that are left out -/

section Dropped

variable {options : Options} {node : Node} {position : Position} {missing : Missing}

/-- A declaration that is left out has not been entered: its body is looked at before. -/
theorem Node.IsDropped.enter_not_mem (dropped : node.IsDropped options position missing)
    (function : Node) : .enter function ∉ reached (node.tasks options position) := by
  intro held
  by_cases kind : node.kind = "FunctionDeclaration"
  · have cut := Node.isDropped_iff.mp dropped
    rw [Node.tasks_of_declaration kind, ← List.append_assoc] at held cut
    generalize before : Part.parameters.tasks options node position ++
      (Part.present "body").tasks options node position = first at held cut
    have plain : .enter function ∉ first := by
      intro inside
      rw [← before] at inside
      rcases List.mem_append.mp inside with param | present
      · exact nomatch (Part.tasks_provided options node position .parameters _ param).1
      · exact nomatch (Part.tasks_provided options node position (.present "body") _ present).1
    cases done : (perform (PhpRendering.render options) first).outcome with
    | error fault =>
        rw [perform_append_of_error done] at cut
        rw [reached_append_of_stop (stop_of_perform_missing cut)] at held
        exact plain (mem_of_mem_reached held)
    | ok result =>
        -- The body was found, so it is rendered next, and its rendering finds nothing missing.
        rw [perform_append, Emission.andThen_outcome_error, done] at cut
        obtain ⟨-, entry⟩ := cut.resolve_left nofun
        obtain ⟨-, child⟩ := (Emission.andThen_outcome_error.mp entry).resolve_left nofun
        cases found : node.field? "body" with
        | none =>
            refine perform_unstopped done (.missing (node.missing "body")) ?_
            rw [← before]
            simp [Part.tasks, Task.needed, Node.require, found]
        | some body =>
            have texts : MissNothing (Part.parameterTexts.tasks options node position) :=
              MissNothing.nil.wanting
            have rest : MissNothing ((Part.text "body").tasks options node position) := by
              simp only [Part.tasks, Task.needed, Node.require, found]
              exact .text _ body
            exact (texts.append rest) _ (stop_of_perform_missing child) missing rfl
  · exact kind (Node.kind_of_enter (mem_of_mem_reached held))

/-- A node that is left out enters a function exactly when something that was rendered
before the missing field does. -/
theorem Node.IsDropped.functions_eq_nil_iff (dropped : node.IsDropped options position missing) :
    (PhpRendering.render options (.node node) position).functions = [] ↔
      ∀ source value place, .visit source value place ∈ reached (node.tasks options position) →
        (PhpRendering.render options value place).functions = [] := by
  rw [render_functions, perform_functions_of_missing (Node.isDropped_iff.mp dropped),
    List.flatMap_eq_nil_iff]
  constructor
  · intro silent source value place visits
    rw [← perform_visit_functions (PhpRendering.render options) source value place]
    exact silent _ visits
  · intro silent task held
    cases task with
    | visit source value place =>
        rw [perform_visit_functions]
        exact silent source value place held
    | enter function => exact absurd held (dropped.enter_not_mem function)
    | report diagnostic => rfl
    | stop fault => rfl

end Dropped

/-! ## Rules that read first -/

/-- Tasks that stop at a missing field before anything else, if they do at all. -/
def StopsFirst (tasks : List Task) : Prop :=
  ∀ missing, .stop (.missing missing) ∈ tasks → reached tasks = []

theorem MissNothing.stopsFirst {tasks : List Task} (fine : MissNothing tasks) : StopsFirst tasks :=
  fun missing held => absurd rfl (fine _ held missing)

namespace StopsFirst

variable {first rest : List Task} {node : Node} {field : String}

theorem needed {next : Value → List Task} (later : ∀ value, StopsFirst (next value)) :
    StopsFirst (Task.needed node field next) := by
  unfold Task.needed
  cases node.require field with
  | ok value => exact later value
  | error missing => exact fun _ _ => rfl

theorem append (start : StopsFirst first) (fine : MissNothing rest) : StopsFirst (first ++ rest) := by
  intro missing held
  have inside := (List.mem_append.mp held).resolve_right fun later => fine _ later missing rfl
  rw [reached_append_of_stop inside]
  exact start missing inside

/-- Tasks that do nothing else than stop. -/
theorem of_stops {tasks : List Task} (stops : ∀ task ∈ tasks, task.isStop = true) :
    StopsFirst tasks := by
  intro missing held
  cases tasks with
  | nil => rfl
  | cons task rest => simp [reached, stops task (List.mem_cons_self ..)]

/-- A required field that is only looked at. -/
theorem present_append (later : StopsFirst rest) :
    StopsFirst (Task.needed node field (fun _ => []) ++ rest) := by
  unfold Task.needed
  cases node.require field with
  | ok value => exact later
  | error missing => exact fun _ _ => rfl

end StopsFirst

/-- The constructs whose rules read all that they require before they render anything. -/
def Construct.readsFirst : Construct → Bool
  | .binary | .update | .call | .member | .functionDeclaration | .classDeclaration
  | .ifStatement | .forStatement | .forInStatement => false
  | _ => true

/-- The rule of a construct that reads first stops first. -/
theorem Construct.tasks_stopsFirst {construct : Construct} (reads : construct.readsFirst = true)
    (options : Options) (node : Node) (position : Position) :
    StopsFirst (construct.tasks options node position) := by
  have direct {field : String} {place : Position} :
      StopsFirst (Task.needed node field (Task.child field place)) :=
    .needed fun value => (MissNothing.child place value).stopsFirst
  have stop {fault : Fault} : ∀ task ∈ [Task.stop fault], task.isStop = true :=
    List.forall_mem_singleton.mpr rfl
  cases construct <;> simp only [Construct.tasks, Construct.parts, List.flatMap_cons, List.flatMap_nil,
    List.append_nil, Part.tasks]
  case statementList => exact .needed fun _ => (MissNothing.sequence _).stopsFirst
  case variableDeclaration =>
    exact .needed fun _ => (MissNothing.shaped fun _ => .items _ _ _ _).wanting.stopsFirst
  case variableDeclarator => exact direct.append (.optional fun _ => .child _ _)
  case identifier =>
    split
    · exact .of_stops stop
    · exact MissNothing.nil.stopsFirst
  case punctuator => exact .needed fun _ => MissNothing.nil.stopsFirst
  case literal => exact MissNothing.nil.stopsFirst
  case selfReference => exact MissNothing.nil.stopsFirst
  case expressionStatement => exact .needed fun _ => (MissNothing.text _ _).stopsFirst
  case construction => exact (MissNothing.visit _ _ _).wanting.stopsFirst
  case functionExpression => exact (MissNothing.visit _ _ _).stopsFirst
  case methodDefinition =>
    exact .needed fun _ => .needed fun _ =>
      (MissNothing.unlessUnsupported (.shaped fun _ => .visit _ _ _)).stopsFirst
  case objectLiteral => exact (MissNothing.optionalItems _).wanting.stopsFirst
  case arrayLiteral => exact (MissNothing.optionalItems _).wanting.stopsFirst
  case property =>
    exact .needed fun _ => .needed fun _ =>
      (MissNothing.unlessUnsupported (.shaped fun _ => .shaped fun _ => .child _ _)).stopsFirst
  case returnStatement => exact (MissNothing.optional fun _ => .text _ _).stopsFirst
  case switchStatement => exact direct.append (.shaped fun _ => .texts _ _ _)
  case switchCase => exact ((MissNothing.optional fun _ => .child _ _).append (.sequence _)).stopsFirst
  case breakStatement => exact MissNothing.nil.stopsFirst
  case moduleDeclaration =>
    refine .present_append (.needed fun body => ?_)
    cases body with
    | list statements => exact (MissNothing.sequence _).stopsFirst
    | _ => exact (MissNothing.child _ _).stopsFirst
  case exportDeclaration =>
    split
    · exact .needed fun _ => (MissNothing.sequence _).stopsFirst
    · exact ((MissNothing.child _ _).append (.shaped fun _ => .nil)).wanting.stopsFirst
  case importDeclaration => exact (MissNothing.optionalItems _).wanting.stopsFirst
  case importSpecifier =>
    refine .of_stops (List.forall_mem_append.mpr ⟨?_, ?_⟩)
    · split
      · exact stop
      · exact stop
      · exact stop
      · exact List.forall_mem_nil _
    · split
      · exact List.forall_mem_nil _
      · exact Task.forall_needed (fun _ => rfl) fun _ _ => List.forall_mem_nil _
  all_goals cases reads

/-- A node that is left out by a rule that reads first has entered nothing. -/
theorem Node.IsDropped.functions_eq_nil {options : Options} {node : Node} {position : Position}
    {missing : Missing} (dropped : node.IsDropped options position missing) {construct : Construct}
    (known : Construct.ofKind? node.kind = some construct) (reads : construct.readsFirst = true) :
    (PhpRendering.render options (.node node) position).functions = [] := by
  have stops := stop_of_perform_missing (Node.isDropped_iff.mp dropped)
  rw [dropped.functions_eq_nil_iff]
  rw [Node.tasks_eq known] at stops ⊢
  rw [Construct.tasks_stopsFirst reads options node position missing stops]
  exact fun _ _ _ held => nomatch held

/-! ## Records -/

namespace ScopeRecord

/-- Every entry that succeeds counts. -/
theorem enterAll_functions_length {record : ScopeRecord} {functions : List Node}
    (fine : (record.enterAll functions).2 = .ok ()) :
    (record.enterAll functions).1.functions.length = record.functions.length + functions.length := by
  induction functions generalizing record with
  | nil => rfl
  | cons function rest ih =>
      have entered := enter_ok_of_enterAll fine
      rw [enterAll_cons entered] at fine ⊢
      obtain ⟨left, closed, closes, ⟨-, refused⟩ | ⟨-, opens⟩⟩ := record.enter_cases function
      · exact absurd entered refused
      · have counted := opens.functions.resolve_right fun refused => refused.2 entered
        rw [ih fine, counted, closes.functions, List.length_append, List.length_singleton,
          List.length_cons]
        omega

theorem enterAll_eq_iff {record : ScopeRecord} {functions : List Node}
    (fine : (record.enterAll functions).2 = .ok ()) :
    (record.enterAll functions).1 = record ↔ functions = [] := by
  constructor
  · intro same
    have counted := enterAll_functions_length fine
    rw [same] at counted
    exact List.eq_nil_of_length_eq_zero (by omega)
  · rintro rfl
    rfl

end ScopeRecord

namespace Session

/-- A node that is left out by a rule that reads first leaves the record as it is. -/
theorem record_unchanged_of_readsFirst {session : Session} {record : ScopeRecord}
    (scoping : session.recorder = .scoping record) {node : Node} {position : Position}
    {missing : Missing} (dropped : node.IsDropped session.options position missing)
    {construct : Construct} (known : Construct.ofKind? node.kind = some construct)
    (reads : construct.readsFirst = true) :
    (session.render (.node node) position).1.recorder = .scoping record := by
  have none := dropped.functions_eq_nil known reads
  have recorded := (observeAll_scoping scoping
    (PhpRendering.render session.options (.node node) position).events).1
  unfold Session.render
  rw [run_fst, recorded]
  unfold Emission.functions at none
  rw [none]
  rfl

/-- A node that is left out leaves a trace in the record exactly when something that its
rule had rendered before the missing field enters a function. -/
theorem record_unchanged_iff {session : Session} {record : ScopeRecord}
    (scoping : session.recorder = .scoping record) {node : Node} {position : Position}
    {missing : Missing} (dropped : node.IsDropped session.options position missing) {text : String}
    (fine : (session.render (.node node) position).2 = .ok text) :
    (session.render (.node node) position).1.recorder = .scoping record ↔
      ∀ source value place,
        .visit source value place ∈ reached (node.tasks session.options position) →
          (PhpRendering.render session.options value place).functions = [] := by
  have observed := observed_of_run fine
  obtain ⟨recorded, result⟩ := observeAll_scoping scoping
    (PhpRendering.render session.options (.node node) position).events
  rw [result] at observed
  unfold Session.render
  rw [run_fst, recorded, Recorder.scoping.injEq, ScopeRecord.enterAll_eq_iff observed,
    ← dropped.functions_eq_nil_iff]
  rfl

end Session

/-- The operation `function () {} +`, whose right side is missing. -/
def halfOperation : Node :=
  let block : Node := ⟨⟨0, [.member "body", .member "left"]⟩, "BlockStatement",
    [("body", .list [])], none⟩
  let function : Node := ⟨⟨0, [.member "left"]⟩, "FunctionExpression",
    [("params", .list []), ("body", .node block)], none⟩
  ⟨⟨0, []⟩, "BinaryExpression", [("operator", .text "+"), ("left", .node function)], none⟩

/-- The operation is left out, but its left side is rendered before, so the function there
stays in the record. -/
theorem halfOperation_leaves_trace :
    halfOperation.IsDropped {} {} ⟨"BinaryExpression", .null, "right"⟩ ∧
      (Session.render {} (.node halfOperation) {}).2 = .ok "" ∧
      (Session.render {} (.node halfOperation) {}).1.recorder ≠ .scoping .initial := by
  have dropped : halfOperation.IsDropped {} {} ⟨"BinaryExpression", .null, "right"⟩ :=
    ⟨.binary, rfl, rfl⟩
  have fine : (Session.render {} (.node halfOperation) {}).2 = .ok "" := rfl
  have scoping : ({} : Session).recorder = .scoping .initial := rfl
  refine ⟨dropped, fine, fun same => ?_⟩
  have silent := (Session.record_unchanged_iff scoping dropped fine).mp same
  have visits : .visit (.field "left") (halfOperation.field "left")
      (.of halfOperation (halfOperation.occurrence "left")) ∈
      reached (halfOperation.tasks {} {}) := List.mem_cons_self ..
  exact nomatch silent _ _ _ visits

end PhpRendering
