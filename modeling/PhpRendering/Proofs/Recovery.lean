import PhpRendering.Proofs.Dropped
import PhpRendering.Proofs.ScopeNesting

/-!
# Runs after failed runs

A run that fails leaves its scopes open. They are closed by the next function that is
entered, with one exception: a function whose body is no node stays the innermost one, and
no function can be looked for in it. Then every later run fails at its first function.
-/

namespace PhpRendering

/-! ## Bodies of entered functions -/

structure Emission.EntersBodies {α : Type} (emission : Emission Fault α) : Prop where
  held : ∀ function ∈ emission.functions, function.field "body" ≠ .null
  node : (∀ crash, emission.outcome ≠ .error (.crash crash)) →
    ∀ function ∈ emission.functions, ∃ body, function.field "body" = .node body

namespace Emission.EntersBodies

theorem andThen {α β : Type} {first : Emission Fault α} {next : α → Emission Fault β}
    (start : first.EntersBodies)
    (follow : ∀ result, first.outcome = .ok result → (next result).EntersBodies) :
    (first.andThen next).EntersBodies := by
  obtain ⟨events, outcome⟩ := first
  cases outcome with
  | error fault =>
      refine ⟨start.held, fun noCrash => start.node fun crash failed => ?_⟩
      exact noCrash crash (congrArg Except.error (Except.error.inj failed))
  | ok result =>
      have later := follow result rfl
      have functions : (Emission.andThen ⟨events, .ok result⟩ next).functions =
          (⟨events, .ok result⟩ : Emission Fault α).functions ++ (next result).functions :=
        List.filterMap_append
      constructor
      · rw [functions]
        exact List.forall_mem_append.mpr ⟨start.held, later.held⟩
      · intro noCrash
        rw [functions]
        exact List.forall_mem_append.mpr ⟨start.node nofun, later.node noCrash⟩

/-- The boundary of a node passes crashes on. -/
theorem boundary {emission : Emission Fault Unit} (bodies : emission.EntersBodies) :
    (PhpRendering.boundary emission).insideRule.EntersBodies := by
  constructor
  · rw [functions_insideRule, boundary_functions]
    exact bodies.held
  · intro noCrash
    rw [functions_insideRule, boundary_functions]
    refine bodies.node fun crash failed => noCrash crash ?_
    simp [PhpRendering.boundary, failed, insideRule]

end Emission.EntersBodies

namespace ScopeRecord

/-- Functions whose bodies are nodes leave a record that can be searched, whether all of
them could be entered or not. -/
theorem IsSearchable.enterAll {record : ScopeRecord} {functions : List Node}
    (searchable : record.IsSearchable) (bodies : ∀ function ∈ functions, function.HasPlainBody) :
    (record.enterAll functions).1.IsSearchable := by
  induction functions generalizing record with
  | nil => exact searchable
  | cons function rest ih =>
      obtain ⟨body, later⟩ := List.forall_mem_cons.mp bodies
      have next := searchable.enter_of_plain body
      cases outcome : (record.enter function).2 with
      | error crash =>
          rw [enterAll_cons_of_error outcome]
          exact next
      | ok done =>
          rw [enterAll_cons outcome]
          exact ih next later

/-! ## Records that a failed run leaves -/

structure IsStuck (record : ScopeRecord) : Prop where
  opened : record.outer ≠ []
  owner : ∃ function, record.currentScope.function = some function ∧ ¬ function.HasPlainBody

theorem node?_eq_none_of_isSame {first second : Occurrence} (other : first.value.node? = none)
    (same : first.isSame second = true) : second.value.node? = none := by
  obtain ⟨one, place⟩ := first
  obtain ⟨two, elsewhere⟩ := second
  cases two with
  | node node => cases one <;> cases other <;> cases same
  | _ => rfl

theorem node?_eq_none_of_not_plain {function : Node} (broken : ¬ function.HasPlainBody) :
    (function.field "body").node? = none := by
  cases held : function.field "body" with
  | node body => exact absurd (.inr ⟨body, held⟩) broken
  | _ => rfl

/-- A body that is no node holds at most itself; for anything else it cannot tell. -/
theorem holds_of_not_plain {scope : Scope} {function : Node} (owner : scope.function = some function)
    (broken : ¬ function.HasPlainBody) (target : Occurrence) :
    scope.holds target = .error .notANode ∨
      scope.holds target = .ok true ∧ target.value.node? = none := by
  have other := node?_eq_none_of_not_plain broken
  unfold Scope.holds
  simp only [owner]
  split
  · next nothing => exact absurd (.inl (Value.eq_null_of_isNull nothing)) broken
  · split
    · next same => exact .inr ⟨rfl, node?_eq_none_of_isSame other same⟩
    · left
      unfold Node.occurrence
      generalize function.field "body" = body at other
      cases body <;> cases other <;> rfl

/-- A stuck record closes no scope, and it does not open one for a function whose body is
a node. -/
theorem IsStuck.leave {record : ScopeRecord} (stuck : record.IsStuck) (function : Node) :
    record.leave function record.outer = (record, .error .notANode) ∨
      record.leave function record.outer = (record, .ok ()) ∧
        (function.field "body").node? = none := by
  obtain ⟨opened, owner, owned, broken⟩ := stuck
  obtain ⟨scopes, current, outer, functions⟩ := record
  cases outer with
  | nil => exact absurd rfl opened
  | cons next outer =>
      simp only [ScopeRecord.leave]
      unfold Scope.holdsBodyOf
      rcases holds_of_not_plain owned broken (function.occurrence "body") with failed | ⟨here, other⟩
      · rw [failed]
        exact .inl rfl
      · rw [here]
        exact .inr ⟨rfl, other⟩

end ScopeRecord

/-! ## Runs one after another -/

namespace Session

end Session

end PhpRendering
