import Mathlib.Data.List.Forall2
import PhpRendering.Proofs.Depth

/-!
# Layouts that are alike

Two layouts are alike when they have the same words and their slots correspond. What
corresponds is up to the reader: a relation between the visits of the two layouts. When
corresponding nodes have layouts that are alike, their renderings are the same, apart from
the functions that are entered on the way: those correspond too.
-/

namespace PhpRendering

/-! ## Emissions -/

inductive Event.Like (E : Node → Node → Prop) : Event → Event → Prop where
  | reported (diagnostic : Diagnostic) : Like E (.reported diagnostic) (.reported diagnostic)
  | entered {first second : Node} (related : E first second) :
      Like E (.entered first) (.entered second)

/-- Two emissions with the same outcome after events that correspond. -/
structure Emission.Like (E : Node → Node → Prop) {ε α : Type} (first second : Emission ε α) :
    Prop where
  events : List.Forall₂ (Event.Like E) first.events second.events
  outcome : first.outcome = second.outcome

namespace Emission.Like

variable {E : Node → Node → Prop} {ε α β : Type}

theorem done (result : α) : Like E (.done result : Emission ε α) (.done result) :=
  ⟨.nil, rfl⟩

theorem fail (failure : ε) : Like E (.fail failure : Emission ε α) (.fail failure) :=
  ⟨.nil, rfl⟩

theorem report (diagnostic : Diagnostic) :
    Like E (Emission.report diagnostic : Emission ε Unit) (Emission.report diagnostic) :=
  ⟨.cons (.reported diagnostic) .nil, rfl⟩

theorem signal {first second : Node} (related : E first second) :
    Like E (Emission.signal (.entered first) : Emission ε Unit) (Emission.signal (.entered second)) :=
  ⟨.cons (.entered related) .nil, rfl⟩

theorem andThen {first second : Emission ε α} {next other : α → Emission ε β}
    (start : first.Like E second) (follow : ∀ result, (next result).Like E (other result)) :
    (first.andThen next).Like E (second.andThen other) := by
  obtain ⟨events, outcome⟩ := first
  obtain ⟨others, same⟩ := second
  obtain ⟨alike, rfl⟩ := start
  cases outcome with
  | error failure => exact ⟨alike, rfl⟩
  | ok result => exact ⟨List.rel_append alike (follow result).events, (follow result).outcome⟩

theorem insideRule {first second : Emission Crash α} (like : first.Like E second) :
    first.insideRule.Like E second.insideRule := by
  obtain ⟨events, outcome⟩ := first
  obtain ⟨others, same⟩ := second
  obtain ⟨alike, rfl⟩ := like
  cases outcome with
  | error crash => exact ⟨alike, rfl⟩
  | ok result => exact ⟨alike, rfl⟩

theorem atBoundary {first second : Emission Fault String} (like : first.Like E second) :
    (PhpRendering.atBoundary "" .ok first).Like E (PhpRendering.atBoundary "" .ok second) := by
  obtain ⟨events, outcome⟩ := first
  obtain ⟨others, same⟩ := second
  obtain ⟨alike, rfl⟩ := like
  cases outcome with
  | ok text => exact ⟨alike, rfl⟩
  | error fault =>
      cases fault with
      | crash crash => exact ⟨alike, rfl⟩
      | missing missing =>
          exact ⟨List.rel_append alike (.cons (.reported _) .nil), rfl⟩

end Emission.Like

/-! ## Layouts -/

/-- Two layouts with the same words, reports and faults whose visits and entries
correspond. -/
inductive Layout.Like (R : Task → Task → Prop) : Layout → Layout → Prop where
  | word (text : String) : Like R (.word text) (.word text)
  | visit {source other : Source} {value counterpart : Value} {position place : Position}
      (related : R (.visit source value position) (.visit other counterpart place)) :
      Like R (.visit source value position) (.visit other counterpart place)
  | enter {first second : Node} (related : R (.enter first) (.enter second)) :
      Like R (.enter first) (.enter second)
  | report (diagnostic : Diagnostic) : Like R (.report diagnostic) (.report diagnostic)
  | stop (fault : Fault) : Like R (.stop fault) (.stop fault)
  | next {first second firstToo secondToo : Layout} (one : Like R first firstToo)
      (other : Like R second secondToo) : Like R (.next first second) (.next firstToo secondToo)
  | swap {first second firstToo secondToo : Layout} (one : Like R first firstToo)
      (other : Like R second secondToo) : Like R (.swap first second) (.swap firstToo secondToo)
  | unwritten {layout other : Layout} (inner : Like R layout other) :
      Like R (.unwritten layout) (.unwritten other)
  | clause {layout other : Layout} (inner : Like R layout other) :
      Like R (.clause layout) (.clause other)
  | line {layout other : Layout} (inner : Like R layout other) : Like R (.line layout) (.line other)
  | changed (change : String → String) {layout other : Layout} (inner : Like R layout other) :
      Like R (.changed change layout) (.changed change other)

namespace Layout.Like

variable {R S : Task → Task → Prop}

/-- Layouts that are alike for a weaker reason: only their own tasks count. -/
theorem strengthen {first second : Layout} (like : first.Like R second)
    (stronger : ∀ task ∈ first.tasks, ∀ other ∈ second.tasks, R task other → S task other) :
    first.Like S second := by
  induction like with
  | word text => exact .word text
  | visit related =>
      exact .visit (stronger _ (List.mem_singleton_self _) _ (List.mem_singleton_self _) related)
  | enter related =>
      exact .enter (stronger _ (List.mem_singleton_self _) _ (List.mem_singleton_self _) related)
  | report diagnostic => exact .report diagnostic
  | stop fault => exact .stop fault
  | next _ _ one two =>
      refine .next (one fun task held other heldToo => ?_) (two fun task held other heldToo => ?_)
      · exact stronger task (List.mem_append_left _ held) other (List.mem_append_left _ heldToo)
      · exact stronger task (List.mem_append_right _ held) other (List.mem_append_right _ heldToo)
  | swap _ _ one two =>
      refine .swap (one fun task held other heldToo => ?_) (two fun task held other heldToo => ?_)
      · exact stronger task (List.mem_append_left _ held) other (List.mem_append_left _ heldToo)
      · exact stronger task (List.mem_append_right _ held) other (List.mem_append_right _ heldToo)
  | unwritten _ ih => exact .unwritten (ih stronger)
  | clause _ ih => exact .clause (ih stronger)
  | line _ ih => exact .line (ih stronger)
  | changed change _ ih => exact .changed change (ih stronger)

/-- Layouts that are alike write the same text when corresponding visits render alike. -/
theorem write {E : Node → Node → Prop} {render renderToo : Renderer} {first second : Layout}
    (like : first.Like R second)
    (entries : ∀ function other, R (.enter function) (.enter other) → E function other)
    (visits : ∀ source value position other counterpart place,
      .visit source value position ∈ first.tasks →
      R (.visit source value position) (.visit other counterpart place) →
      (render value position).Like E (renderToo counterpart place)) :
    (first.write render).Like E (second.write renderToo) := by
  induction like with
  | word text => exact .done text
  | visit related =>
      exact (visits _ _ _ _ _ _ (List.mem_singleton_self _) related).insideRule
  | enter related => exact (Emission.Like.signal (entries _ _ related)).andThen fun _ => .done ""
  | report diagnostic => exact (Emission.Like.report diagnostic).andThen fun _ => .done ""
  | stop fault => exact .fail fault
  | next _ _ one other =>
      have early := one fun source value position other counterpart place held =>
        visits source value position other counterpart place (List.mem_append_left _ held)
      have late := other fun source value position other counterpart place held =>
        visits source value position other counterpart place (List.mem_append_right _ held)
      exact early.andThen fun _ => late.andThen fun _ => .done _
  | swap _ _ one other =>
      have early := one fun source value position other counterpart place held =>
        visits source value position other counterpart place (List.mem_append_left _ held)
      have late := other fun source value position other counterpart place held =>
        visits source value position other counterpart place (List.mem_append_right _ held)
      exact early.andThen fun _ => late.andThen fun _ => .done _
  | unwritten _ ih => exact (ih visits).andThen fun _ => .done _
  | clause _ ih => exact (ih visits).andThen fun _ => .done _
  | line _ ih => exact (ih visits).andThen fun _ => .done _
  | changed _ _ ih => exact (ih visits).andThen fun _ => .done _

/-! ## Layouts of several layouts -/

theorem wanting {fits fitsToo : Bool} (same : fits = fitsToo) {layout other : Layout}
    (inner : Layout.Like R layout other) :
    (Layout.wanting fits layout).Like R (Layout.wanting fitsToo other) := by
  subst same
  cases fits with
  | true => exact inner
  | false => exact .next inner (.stop _)

theorem joined {layouts others : List Layout} (all : List.Forall₂ (Layout.Like R) layouts others) :
    (Layout.joined layouts).Like R (Layout.joined others) := by
  induction all with
  | nil => exact .word ""
  | cons first _ ih => exact .next first ih

theorem separatedBy (separator : String) {layouts others : List Layout}
    (all : List.Forall₂ (Layout.Like R) layouts others) :
    (Layout.separatedBy separator layouts).Like R (Layout.separatedBy separator others) := by
  induction all with
  | nil => exact .word ""
  | cons first rest ih =>
      cases rest with
      | nil => exact first
      | cons second later => exact .next first (.next (.word separator) ih)

theorem firstOr (absent : String) {layouts others : List Layout}
    (all : List.Forall₂ (Layout.Like R) layouts others) :
    (Layout.firstOr absent layouts).Like R (Layout.firstOr absent others) := by
  cases all with
  | nil => exact .word absent
  | cons first rest => exact .next first (.unwritten (joined rest))

end Layout.Like

/-! ## Renderings -/

/-- Values that are no nodes render alike: they do not render at all. -/
theorem render_like_of_other (options : Options) (E : Node → Node → Prop) {value counterpart : Value}
    (other : value.node? = none) (otherToo : counterpart.node? = none) (position place : Position) :
    (render options value position).Like E (render options counterpart place) := by
  rw [render_of_node?_eq_none options other, render_of_node?_eq_none options otherToo]
  exact .fail Crash.notANode

/-- Nodes that correspond render alike when the layouts of all nodes that correspond are
alike. The induction is on the visits of the first of the two trees. -/
theorem render_like (options : Options) {R : Task → Task → Prop} {E : Node → Node → Prop}
    (layouts : ∀ source node position other counterpart place,
      R (.visit source (.node node) position) (.visit other (.node counterpart) place) →
      (node.layout options position).Like R (counterpart.layout options place) ∧
        node.owesTerminator options position = counterpart.owesTerminator options place)
    (shapes : ∀ source value position other counterpart place,
      R (.visit source value position) (.visit other counterpart place) →
      value.node?.isSome = counterpart.node?.isSome)
    (entries : ∀ function other, R (.enter function) (.enter other) → E function other)
    {source other : Source} {node counterpart : Node} {position place : Position}
    (related : R (.visit source (.node node) position) (.visit other (.node counterpart) place)) :
    (render options (.node node) position).Like E (render options (.node counterpart) place) := by
  induction node, position using Node.visit_induction options
    generalizing source other counterpart place with
  | step node position ih =>
      obtain ⟨like, owes⟩ := layouts source node position other counterpart place related
      rw [render_eq, render_eq, renderNode, renderNode, Layout.closed, Layout.closed, owes]
      refine ((like.write entries ?_).andThen fun text => .done _).atBoundary
      intro source value position other counterpart place held related
      have shape := shapes source value position other counterpart place related
      cases kind : value.node? with
      | none =>
          rw [kind, Option.isSome_none] at shape
          have kindToo := Option.not_isSome_iff_eq_none.mp (Bool.eq_false_iff.mp shape.symm)
          exact render_like_of_other options E kind kindToo position place
      | some child =>
          rw [kind, Option.isSome_some] at shape
          cases value <;> cases kind
          cases counterpart <;> cases shape
          rw [Node.layout_tasks] at held
          exact ih source child position held related

end PhpRendering
