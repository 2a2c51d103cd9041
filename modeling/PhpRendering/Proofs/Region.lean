import PhpRendering.Proofs.Place
import PhpRendering.Proofs.Source

/-!
# Regions of the tasks of a node

What a node has rendered for a source stands in a region of the tree below it. The
regions of the tasks of a node do not overlap, so no node is rendered twice.
-/

namespace PhpRendering

namespace Origin.IsWithin

/-- Places one step below a place are apart unless the steps are the same. -/
theorem step_eq {origin : Origin} {step other : Step}
    (within : (origin.down step).IsWithin (origin.down other)) : step = other := by
  have same := within.2.eq_of_length (by simp [Origin.down])
  exact (List.cons.inj same).1.symm

/-- Items of lists at the same depth are apart unless their positions are the same. -/
theorem index_eq {first second : Origin} {index other : Nat}
    (level : first.steps.length = second.steps.length)
    (within : (first.down (.item index)).IsWithin (second.down (.item other))) : index = other := by
  have same := within.2.eq_of_length (by simp [Origin.down, level])
  cases (List.cons.inj same).1
  rfl

end Origin.IsWithin

/-- Whether two places have nothing in common below them. -/
def Origin.Apart (first second : Origin) : Prop :=
  ¬ first.IsWithin second ∧ ¬ second.IsWithin first

/-- No place lies below two places that are apart. -/
theorem Origin.Apart.elim {first second inner : Origin} (apart : first.Apart second)
    (within : inner.IsWithin first) (withinToo : inner.IsWithin second) : False :=
  (within.total withinToo).elim apart.1 apart.2

/-- Places below places that are apart are apart. -/
theorem Origin.Apart.mono {first second inner other : Origin} (apart : first.Apart second)
    (within : inner.IsWithin first) (withinToo : other.IsWithin second) : inner.Apart other := by
  constructor
  · intro below
    exact (within.total (below.trans withinToo)).elim apart.1 apart.2
  · intro below
    exact (withinToo.total (below.trans within)).elim apart.2 apart.1

/-- Places one step below a place are apart when the steps differ. -/
theorem Origin.apart_of_step_ne {step other : Step} (different : step ≠ other) (origin : Origin) :
    (origin.down step).Apart (origin.down other) :=
  ⟨fun within => different within.step_eq, fun within => different within.step_eq.symm⟩

/-! ## Regions -/

/-- The places below which everything stands that is rendered for a source of a node. -/
def Source.regions (origin : Origin) : Source → List Origin
  | .copy => [origin]
  | .field name => [origin.down (.member name)]
  | .item name index => [(origin.down (.member name)).down (.item index)]
  | .receiver => [(origin.down (.member "callee")).down (.member "object")]
  | .declarator index =>
      [((origin.down (.member "init")).down (.member "declarations")).down (.item index)]
  | .method => [origin.down (.member "value")]
  | .pattern index =>
      let param := (origin.down (.member "params")).down (.item index)
      [param.down (.member "left"), param.down (.member "right")]
  | .defaulted index =>
      [(origin.down (.member "params")).down (.item index),
        (origin.down (.member "defaults")).down (.item index)]

/-- The fields in which the regions of a source lie. A copy has none of its own. -/
def Source.fields : Source → List String
  | .copy => []
  | .field name => [name]
  | .item name _ => [name]
  | .receiver => ["callee"]
  | .declarator _ => ["init"]
  | .method => ["value"]
  | .pattern _ => ["params"]
  | .defaulted _ => ["params", "defaults"]

def Source.Apart (first second : Source) : Prop :=
  ∀ origin, ∀ region ∈ first.regions origin, ∀ other ∈ second.regions origin, region.Apart other

def Source.HasIndex (depth index : Nat) (source : Source) : Prop :=
  ∀ origin, ∀ region ∈ source.regions origin, ∃ list : Origin,
    list.steps.length = origin.steps.length + depth ∧ region.IsWithin (list.down (.item index))

namespace Source

theorem regions_within {source : Source} (real : source ≠ .copy) (origin : Origin) :
    ∀ region ∈ source.regions origin, ∃ name ∈ source.fields,
      region.IsWithin (origin.down (.member name)) := by
  cases source with
  | copy => exact absurd rfl real
  | field name =>
      exact List.forall_mem_singleton.mpr ⟨name, List.mem_singleton_self _, .refl _⟩
  | item name index =>
      exact List.forall_mem_singleton.mpr ⟨name, List.mem_singleton_self _, .down _ _⟩
  | receiver =>
      exact List.forall_mem_singleton.mpr ⟨_, List.mem_singleton_self _, .down _ _⟩
  | declarator index =>
      exact List.forall_mem_singleton.mpr
        ⟨_, List.mem_singleton_self _, (Origin.IsWithin.down _ _).trans (.down _ _)⟩
  | method => exact List.forall_mem_singleton.mpr ⟨_, List.mem_singleton_self _, .refl _⟩
  | pattern index =>
      intro region held
      refine ⟨"params", List.mem_singleton_self _, ?_⟩
      have inside := (Origin.IsWithin.down (origin.down (.member "params")) (.item index))
      rcases List.mem_cons.mp held with rfl | held
      · exact (Origin.IsWithin.down _ _).trans inside
      · cases List.mem_singleton.mp held
        exact (Origin.IsWithin.down _ _).trans inside
  | defaulted index =>
      intro region held
      rcases List.mem_cons.mp held with rfl | held
      · exact ⟨"params", List.mem_cons_self .., .down _ _⟩
      · cases List.mem_singleton.mp held
        exact ⟨"defaults", List.mem_cons_of_mem _ (List.mem_singleton_self _), .down _ _⟩

/-- Sources in different fields are apart. -/
theorem apart_of_fields {first second : Source} (real : first ≠ .copy) (realToo : second ≠ .copy)
    (different : ∀ name ∈ first.fields, name ∉ second.fields) : first.Apart second := by
  intro origin region held other heldToo
  obtain ⟨name, listed, within⟩ := regions_within real origin region held
  obtain ⟨otherName, listedToo, withinToo⟩ := regions_within realToo origin other heldToo
  refine Origin.Apart.mono (Origin.apart_of_step_ne ?_ origin) within withinToo
  rintro ⟨⟩
  exact different _ listed listedToo

/-- Sources at different positions are apart. -/
theorem apart_of_index {first second : Source} {depth index other : Nat}
    (indexed : first.HasIndex depth index) (indexedToo : second.HasIndex depth other)
    (different : index ≠ other) : first.Apart second := by
  intro origin region held region' heldToo
  obtain ⟨list, level, within⟩ := indexed origin region held
  obtain ⟨list', level', within'⟩ := indexedToo origin region' heldToo
  refine Origin.Apart.mono ⟨fun same => ?_, fun same => ?_⟩ within within'
  · exact different (same.index_eq (level.trans level'.symm))
  · exact different (same.index_eq (level'.trans level.symm)).symm

theorem hasIndex_item (name : String) (index : Nat) : (item name index).HasIndex 1 index := by
  intro origin region held
  cases List.mem_singleton.mp held
  exact ⟨_, rfl, .refl _⟩

theorem hasIndex_declarator (index : Nat) : (declarator index).HasIndex 2 index := by
  intro origin region held
  cases List.mem_singleton.mp held
  exact ⟨_, rfl, .refl _⟩

theorem hasIndex_pattern (index : Nat) : (pattern index).HasIndex 1 index := by
  intro origin region held
  rcases List.mem_cons.mp held with rfl | held
  · exact ⟨_, rfl, .down _ _⟩
  · cases List.mem_singleton.mp held
    exact ⟨_, rfl, .down _ _⟩

theorem hasIndex_defaulted (index : Nat) : (defaulted index).HasIndex 1 index := by
  intro origin region held
  rcases List.mem_cons.mp held with rfl | held
  · exact ⟨_, rfl, .refl _⟩
  · cases List.mem_singleton.mp held
    exact ⟨_, rfl, .refl _⟩

end Source

/-! ## Tasks apart from each other -/

def Task.Apart : Task → Task → Prop
  | .visit source _ _, .visit other _ _ => source.Apart other
  | _, _ => True

def Task.HasIndex (depth index : Nat) : Task → Prop
  | .visit source _ _ => source.HasIndex depth index
  | _ => True

namespace Task

variable {node : Node} {field : String} {depth : Nat}

/-- Only the regions of two renderings can meet. -/
theorem apart_of_visits {first second : Task}
    (apart : ∀ source value place other valueToo placeToo, first = .visit source value place →
      second = .visit other valueToo placeToo → source.Apart other) : first.Apart second := by
  cases first with
  | visit source value place =>
      cases second with
      | visit other valueToo placeToo => exact apart _ _ _ _ _ _ rfl rfl
      | enter function => trivial
      | report diagnostic => trivial
      | stop fault => trivial
  | enter function => trivial
  | report diagnostic => trivial
  | stop fault => trivial

theorem apart_of_index {first second : Task} {index other : Nat}
    (indexed : first.HasIndex depth index) (indexedToo : second.HasIndex depth other)
    (different : index ≠ other) : first.Apart second := by
  apply apart_of_visits
  rintro source _ _ otherSource _ _ rfl rfl
  exact Source.apart_of_index indexed indexedToo different

theorem pairwise_needed {next : Value → List Task}
    (each : ∀ value, (next value).Pairwise Task.Apart) :
    (needed node field next).Pairwise Task.Apart := by
  unfold needed
  split
  · exact each _
  · exact List.pairwise_singleton _ _

theorem pairwise_optional {next : Value → List Task}
    (each : ∀ value, (next value).Pairwise Task.Apart) :
    (optional node field next).Pairwise Task.Apart := by
  unfold optional
  split
  · exact each _
  · exact List.Pairwise.nil

theorem pairwise_shaped {α : Type} {result : Except Crash α} {next : α → List Task}
    (each : ∀ found, (next found).Pairwise Task.Apart) :
    (shaped result next).Pairwise Task.Apart := by
  unfold shaped
  split
  · exact each _
  · exact List.pairwise_singleton _ _

theorem apart_of_stop {task other : Task} (stops : ∃ fault, other = .stop fault) :
    task.Apart other := by
  obtain ⟨fault, rfl⟩ := stops
  cases task <;> trivial

/-- A demand for texts renders nothing more. -/
theorem pairwise_wanting {fits : Bool} {tasks : List Task} (each : tasks.Pairwise Task.Apart) :
    (wanting fits tasks).Pairwise Task.Apart := by
  unfold wanting
  split
  · exact each
  · rw [List.pairwise_append]
    refine ⟨each, List.pairwise_singleton _ _, fun task _ other stops => ?_⟩
    exact apart_of_stop ⟨_, List.mem_singleton.mp stops⟩

/-- Tasks for the items of a list are apart when each has the position of its item. -/
theorem pairwise_zipIdx {α : Type} (depth : Nat) {tasks : α × Nat → List Task}
    (single : ∀ entry, (tasks entry).Pairwise Task.Apart)
    (indexed : ∀ entry, ∀ task ∈ tasks entry, task.HasIndex depth entry.2) (values : List α) :
    (values.zipIdx.flatMap tasks).Pairwise Task.Apart := by
  have listed (start : Nat) : ((values.zipIdx start).flatMap tasks).Pairwise Task.Apart := by
    induction values generalizing start with
    | nil => exact List.Pairwise.nil
    | cons value rest ih =>
        rw [List.zipIdx_cons, List.flatMap_cons, List.pairwise_append]
        refine ⟨single _, ih (start + 1), fun task first other later => ?_⟩
        obtain ⟨entry, held, among⟩ := List.mem_flatMap.mp later
        have beyond := List.le_snd_of_mem_zipIdx held
        exact apart_of_index (indexed _ task first) (indexed _ other among) (by dsimp only; omega)
  exact listed 0

theorem pairwise_items {source : Nat → Source}
    (indexed : ∀ index, (source index).HasIndex depth index) (position : Nat → Position)
    (skips : Bool) (values : List Value) :
    (items source position skips values).Pairwise Task.Apart := by
  refine pairwise_zipIdx depth (fun entry => ?_) (fun entry task held => ?_) values
  · split
    · exact List.Pairwise.nil
    · exact List.pairwise_singleton _ _
  · split at held
    · cases held
    · cases List.mem_singleton.mp held
      exact indexed _

theorem pairwise_texts {source : Nat → Source}
    (indexed : ∀ index, (source index).HasIndex depth index) (position : Position)
    (values : List Value) : (texts source position values).Pairwise Task.Apart := by
  refine pairwise_zipIdx depth (fun entry => ?_) (fun entry task held => ?_) values
  · exact pairwise_wanting (List.pairwise_singleton _ _)
  · exact forall_wanting (fun _ => trivial)
      (List.forall_mem_singleton.mpr (indexed entry.2)) task held

theorem pairwise_sequence {parent : Node} {list : Value} :
    (sequence parent field list).Pairwise Task.Apart :=
  pairwise_wanting <| pairwise_shaped fun found =>
    pairwise_items (Source.hasIndex_item field) _ _ found

theorem pairwise_optionalItems {skips : Bool} :
    (optionalItems node field skips).Pairwise Task.Apart :=
  pairwise_shaped fun found => pairwise_items (Source.hasIndex_item field) _ _ found

/-- A parameter is rendered once, at its position. -/
theorem pairwise_parameter (param : Value) (index : Nat) :
    (parameter node param index).Pairwise Task.Apart := by
  refine pairwise_shaped fun default => pairwise_shaped fun found => ?_
  split
  · exact pairwise_needed fun _ => pairwise_needed fun _ => List.pairwise_singleton _ _
  · split
    · exact List.pairwise_singleton _ _
    · exact List.pairwise_singleton _ _

theorem parameter_hasIndex (param : Value) (index : Nat) :
    ∀ task ∈ parameter node param index, task.HasIndex 1 index := by
  refine forall_shaped (fun _ _ => trivial) fun default _ => ?_
  refine forall_shaped (fun _ _ => trivial) fun found _ => ?_
  split
  · refine forall_needed (fun _ => trivial) fun _ _ => forall_needed (fun _ => trivial) fun _ _ => ?_
    exact List.forall_mem_singleton.mpr (Source.hasIndex_pattern index)
  · split
    · exact List.forall_mem_singleton.mpr (Source.hasIndex_item "params" index)
    · exact List.forall_mem_singleton.mpr (Source.hasIndex_defaulted index)

def IsIn (fields : List String) : Task → Prop
  | .visit source _ _ => source ≠ .copy ∧ ∀ name ∈ source.fields, name ∈ fields
  | _ => True

theorem IsIn.apart {first second : Task} {fields others : List String} (inside : first.IsIn fields)
    (insideToo : second.IsIn others) (different : ∀ name ∈ fields, name ∉ others) :
    first.Apart second := by
  apply apart_of_visits
  rintro source _ _ other _ _ rfl rfl
  apply Source.apart_of_fields inside.1 insideToo.1
  intro name held heldToo
  exact different name (inside.2 name held) (insideToo.2 name heldToo)

/-- Tasks in different fields one after another. -/
theorem pairwise_append {first second : List Task} {fields others : List String}
    (apart : first.Pairwise Task.Apart) (apartToo : second.Pairwise Task.Apart)
    (inside : ∀ task ∈ first, task.IsIn fields) (insideToo : ∀ task ∈ second, task.IsIn others)
    (different : ∀ name ∈ fields, name ∉ others) : (first ++ second).Pairwise Task.Apart := by
  rw [List.pairwise_append]
  refine ⟨apart, apartToo, fun task held other heldToo => ?_⟩
  exact (inside task held).apart (insideToo other heldToo) different

theorem child_isIn (field : String) (position : Position) (value : Value) :
    ∀ task ∈ child field position value, task.IsIn [field] :=
  List.forall_mem_singleton.mpr ⟨Source.noConfusion, fun _ held => held⟩

/-- A check alone renders nothing. -/
theorem check_isIn {α : Type} (result : Except Crash α) (fields : List String) :
    ∀ task ∈ shaped result (fun _ => []), task.IsIn fields :=
  forall_shaped (fun _ _ => trivial) fun _ _ => List.forall_mem_nil _

theorem pairwise_check {α : Type} (result : Except Crash α) :
    (shaped result fun _ => []).Pairwise Task.Apart :=
  pairwise_shaped fun _ => List.Pairwise.nil

theorem arguments_isIn (call : Node) : ∀ task ∈ arguments call, task.IsIn ["arguments"] := by
  refine forall_shaped (fun _ _ => trivial) fun items _ => forall_items fun _ _ _ _ => ?_
  exact ⟨Source.noConfusion, fun _ held => held⟩

/-- What follows the callee of a call is rendered for its arguments. -/
theorem continued_isIn (position : Position) (callee : Value) :
    ∀ task ∈ continued node position callee, task.IsIn ["arguments"] := by
  have operands : ∀ task ∈ wanting (node.field "arguments").itemsYieldText (arguments node),
      task.IsIn ["arguments"] :=
    forall_wanting (fun _ => trivial) (arguments_isIn node)
  unfold continued
  split
  · exact List.forall_mem_append.mpr ⟨operands, check_isIn _ _⟩
  · split
    · refine List.forall_mem_append.mpr ⟨operands, forall_shaped (fun _ _ => trivial) fun _ _ => ?_⟩
      split
      · exact List.forall_mem_singleton.mpr trivial
      · exact List.forall_mem_nil _
    · exact List.forall_mem_append.mpr ⟨operands, List.forall_mem_singleton.mpr trivial⟩

theorem pairwise_continued (position : Position) (callee : Value) :
    (continued node position callee).Pairwise Task.Apart := by
  have operands : (wanting (node.field "arguments").itemsYieldText (arguments node)).Pairwise
      Task.Apart := pairwise_wanting pairwise_optionalItems
  have inside : ∀ task ∈ wanting (node.field "arguments").itemsYieldText (arguments node),
      task.IsIn ["arguments"] := forall_wanting (fun _ => trivial) (arguments_isIn node)
  have stops (fault : Fault) : ∀ task ∈ [Task.stop fault], task.IsIn [] :=
    List.forall_mem_singleton.mpr trivial
  unfold continued
  split
  · exact pairwise_append operands (pairwise_check _) inside (check_isIn _ []) (by decide)
  · split
    · have apart : (shaped position.checkParent fun _ =>
          if position.inStatement then [.stop (.crash .notAName)] else []).Pairwise Task.Apart := by
        refine pairwise_shaped fun _ => ?_
        split
        · exact List.pairwise_singleton _ _
        · exact List.Pairwise.nil
      have nothing : ∀ task ∈ shaped position.checkParent fun _ =>
          if position.inStatement then [.stop (.crash .notAName)] else [], task.IsIn [] := by
        refine forall_shaped (fun _ _ => trivial) fun _ _ => ?_
        split
        · exact stops _
        · exact List.forall_mem_nil _
      exact pairwise_append operands apart inside nothing (by decide)
    · exact pairwise_append operands (List.pairwise_singleton _ _) inside (stops _) (by decide)

theorem callReceiver_isIn (call : Node) : ∀ task ∈ callReceiver call, task.IsIn ["callee"] := by
  refine forall_needed (fun _ => trivial) fun callee _ => ?_
  refine forall_shaped (fun _ _ => trivial) fun called _ => ?_
  refine forall_needed (fun _ => trivial) fun object _ => List.forall_mem_singleton.mpr ?_
  exact ⟨Source.noConfusion, fun _ held => held⟩

theorem pairwise_callReceiver (call : Node) : (callReceiver call).Pairwise Task.Apart :=
  pairwise_needed fun _ => pairwise_shaped fun _ => pairwise_needed fun _ =>
    List.pairwise_singleton _ _

theorem pairwise_substituted (substitute : Substitute) :
    (substituted node substitute).Pairwise Task.Apart := by
  have receivers := pairwise_callReceiver node
  have operands : (arguments node).Pairwise Task.Apart := pairwise_optionalItems
  cases substitute with
  | receiverFirst function =>
      exact pairwise_wanting (pairwise_append receivers operands (callReceiver_isIn node)
        (arguments_isIn node) (by decide))
  | receiverLast function =>
      exact pairwise_wanting (pairwise_append operands receivers (arguments_isIn node)
        (callReceiver_isIn node) (by decide))
  | propertyFunction function => exact pairwise_needed fun _ => List.pairwise_singleton _ _
  | charAt =>
      exact pairwise_append operands receivers (arguments_isIn node) (callReceiver_isIn node)
        (by decide)
  | constant text => exact List.Pairwise.nil

end Task

/-- No part renders twice in one region. -/
theorem Part.pairwise_tasks (options : Options) (node : Node) (position : Position) (part : Part) :
    (part.tasks options node position).Pairwise Task.Apart := by
  have single (field : String) (place : Position) (value : Value) :
      (Task.child field place value).Pairwise Task.Apart := List.pairwise_singleton _ _
  have text (field : String) (place : Position) (value : Value) :
      (Task.text field place value).Pairwise Task.Apart :=
    Task.pairwise_wanting (single field place value)
  cases part with
  | present field => exact Task.pairwise_needed fun _ => List.Pairwise.nil
  | mark field => exact Task.pairwise_needed fun _ => Task.pairwise_check _
  | spelling => exact List.Pairwise.nil
  | child field => exact Task.pairwise_needed fun value => single _ _ value
  | text field => exact Task.pairwise_needed fun value => text _ _ value
  | side field => exact Task.pairwise_needed fun value => single _ _ value
  | optionalChild field => exact Task.pairwise_optional fun value => single _ _ value
  | optionalText field => exact Task.pairwise_optional fun value => text _ _ value
  | children field =>
      exact Task.pairwise_needed fun _ => Task.pairwise_wanting <|
        Task.pairwise_shaped fun items =>
          Task.pairwise_items (Source.hasIndex_item field) _ _ items
  | optionalChildren field => exact Task.pairwise_wanting Task.pairwise_optionalItems
  | clauses field =>
      exact Task.pairwise_shaped fun items =>
        Task.pairwise_texts (Source.hasIndex_item field) _ items
  | elements field => exact Task.pairwise_wanting Task.pairwise_optionalItems
  | statements field => exact Task.pairwise_needed fun _ => Task.pairwise_sequence
  | optionalStatements field => exact Task.pairwise_sequence
  | name =>
      simp only [Part.tasks]
      split
      · exact List.pairwise_singleton _ _
      · exact List.Pairwise.nil
  | call =>
      refine Task.pairwise_needed fun callee => Task.pairwise_shaped fun called => ?_
      refine Task.pairwise_shaped fun substitute => ?_
      cases substitute with
      | some substitute => exact Task.pairwise_substituted substitute
      | none =>
          exact Task.pairwise_append (single _ _ _) (Task.pairwise_continued position callee)
            (Task.child_isIn _ _ _) (Task.continued_isIn position callee) (by decide)
  | construction => exact Task.pairwise_wanting (List.pairwise_singleton _ _)
  | access =>
      refine Task.pairwise_needed fun object => Task.pairwise_needed fun property => ?_
      refine Task.pairwise_shaped fun substitute => ?_
      cases substitute with
      | some substitute => exact Task.pairwise_substituted substitute
      | none =>
          exact Task.pairwise_append (single _ _ _) (single _ _ _) (Task.child_isIn _ _ _)
            (Task.child_isIn _ _ _) (by decide)
  | declaration => exact List.pairwise_singleton _ _
  | parameters =>
      exact Task.pairwise_shaped fun params => Task.pairwise_zipIdx 1
        (fun entry => Task.pairwise_parameter entry.1 entry.2)
        (fun entry => Task.parameter_hasIndex entry.1 entry.2) params
  | parameterTexts => exact Task.pairwise_wanting List.Pairwise.nil
  | entry => exact List.pairwise_singleton _ _
  | superclass =>
      refine Task.pairwise_optional fun value => Task.pairwise_shaped fun parent => ?_
      split
      · exact List.Pairwise.nil
      · exact single _ _ value
  | method =>
      refine Task.pairwise_needed fun key => Task.pairwise_needed fun value => ?_
      unfold Task.unlessUnsupported
      split
      · exact List.pairwise_singleton _ _
      · exact Task.pairwise_shaped fun _ => List.pairwise_singleton _ _
  | entryValue =>
      refine Task.pairwise_needed fun key => Task.pairwise_needed fun value => ?_
      unfold Task.unlessUnsupported
      split
      · exact List.pairwise_singleton _ _
      · exact Task.pairwise_shaped fun _ => Task.pairwise_shaped fun _ => single _ _ value
  | alternate =>
      exact Task.pairwise_optional fun value => Task.pairwise_shaped fun _ => text _ _ value
  | loopStart =>
      refine Task.pairwise_optional fun init => Task.pairwise_shaped fun start => ?_
      split
      · exact Task.pairwise_needed fun _ => Task.pairwise_shaped fun items =>
          Task.pairwise_texts Source.hasIndex_declarator _ items
      · exact text _ _ init
  | moduleBody =>
      refine Task.pairwise_needed fun body => ?_
      unfold Task.moduleBody
      split
      · exact Task.pairwise_sequence
      · exact single _ _ _
  | exported =>
      simp only [Part.tasks]
      split
      · exact Task.pairwise_needed fun _ => Task.pairwise_sequence
      · exact Task.pairwise_wanting (Task.pairwise_append (single _ _ _) (Task.pairwise_check _)
          (Task.child_isIn _ _ _) (Task.check_isIn _ []) (by decide))
  | importedModule =>
      simp only [Part.tasks]
      split
      · exact List.pairwise_singleton _ _
      · exact List.pairwise_singleton _ _
      · exact List.pairwise_singleton _ _
      · exact List.Pairwise.nil
  | importedBinding =>
      simp only [Part.tasks]
      split
      · exact List.Pairwise.nil
      · exact Task.pairwise_needed fun _ => List.Pairwise.nil

def Part.isCheck : Part → Bool
  | .mark _ => true
  | .parameterTexts => true
  | _ => false

def Part.fields (part : Part) : List String :=
  if part.isCheck then [] else part.readings.map Reading.field

def Part.isCopy : Part → Bool
  | .construction => true
  | .declaration => true
  | _ => false

/-- What a part provides stands in the fields that it reads. -/
theorem Source.Provides.fields_mem {node : Node} {part : Part} {source : Source} {value : Value}
    (provided : source.Provides node part value) (renders : part.isCheck = false) :
    ∀ name ∈ source.fields, name ∈ part.fields := by
  have listed {field : String} {shape : Shape} {use : Use}
      (read : ⟨field, shape, use⟩ ∈ part.readings) : field ∈ part.fields := by
    unfold Part.fields
    rw [renders]
    exact List.mem_map.mpr ⟨_, read, rfl⟩
  cases provided with
  | call read => exact List.forall_mem_nil _
  | declaration read name => exact List.forall_mem_nil _
  | field read single found direct => exact List.forall_mem_singleton.mpr (listed read)
  | item read several held place rendered => exact List.forall_mem_singleton.mpr (listed read)
  | receiver read held role found => exact List.forall_mem_singleton.mpr (listed read)
  | declarator read held kind declared place => exact List.forall_mem_singleton.mpr (listed read)
  | method read held name => exact List.forall_mem_singleton.mpr (listed read)
  | pattern read held place kind left right => exact List.forall_mem_singleton.mpr (listed read)
  | defaulted read held place kind readDefaults given something =>
      exact List.forall_mem_cons.mpr ⟨listed read, List.forall_mem_singleton.mpr (listed readDefaults)⟩

/-- A check renders nothing. -/
theorem Part.tasks_of_isCheck {part : Part} (check : part.isCheck = true) (options : Options)
    (node : Node) (position : Position) :
    ∀ task ∈ part.tasks options node position, ∃ fault, task = .stop fault := by
  cases part with
  | mark field =>
      exact Task.forall_needed (fun _ => ⟨_, rfl⟩) fun _ _ =>
        Task.forall_shaped (fun _ _ => ⟨_, rfl⟩) fun _ _ => List.forall_mem_nil _
  | parameterTexts => exact Task.forall_wanting (fun _ => ⟨_, rfl⟩) (List.forall_mem_nil _)
  | _ => cases check

theorem Part.tasks_isIn (options : Options) (node : Node) (position : Position) {part : Part}
    (own : part.isCopy = false) : ∀ task ∈ part.tasks options node position,
      task.IsIn part.fields := by
  intro task held
  have provided := part.tasks_provided options node position task held
  cases task with
  | visit source value place =>
      have renders : part.isCheck = false := by
        refine Bool.eq_false_iff.mpr fun check => ?_
        obtain ⟨fault, stops⟩ := Part.tasks_of_isCheck check options node position _ held
        cases stops
      refine ⟨?_, provided.fields_mem renders⟩
      rintro rfl
      cases provided with
      | call read =>
          subst read
          cases own
      | declaration read name =>
          subst read
          cases own
  | enter function => trivial
  | report diagnostic => trivial
  | stop fault => trivial

/-- A construct with a copy has nothing else. The parts of any other construct read
different fields. -/
theorem Construct.parts_apart (construct : Construct) :
    construct.parts.length ≤ 1 ∨ (∀ part ∈ construct.parts, part.isCopy = false) ∧
      construct.parts.Pairwise fun first second => ∀ name ∈ first.fields, name ∉ second.fields := by
  cases construct <;> decide

/-- No node is rendered twice: the tasks of a node have regions apart from each other. -/
theorem Construct.pairwise_tasks (options : Options) (node : Node) (position : Position)
    (construct : Construct) : (construct.tasks options node position).Pairwise Task.Apart := by
  unfold Construct.tasks
  rw [List.pairwise_flatMap]
  refine ⟨fun part _ => part.pairwise_tasks options node position, ?_⟩
  rcases construct.parts_apart with short | ⟨own, different⟩
  · match construct.parts, short with
    | [], _ => exact List.Pairwise.nil
    | [_], _ => exact List.pairwise_singleton _ _
  · refine different.imp_of_mem fun held heldToo apart task among other amongToo => ?_
    exact (Part.tasks_isIn options node position (own _ held) task among).apart
      (Part.tasks_isIn options node position (own _ heldToo) other amongToo) apart

end PhpRendering
