import PhpRendering.Session

/-!
# Runs of a session

What a session does with an emission and with a program, and how it goes on from one
tree to the next.
-/

namespace PhpRendering.Session

theorem run_of_observed {α : Type} {session : Session} {emission : Emission Crash α}
    (fine : (session.observeAll emission.events).2 = .ok ()) :
    session.run emission = ((session.observeAll emission.events).1, emission.outcome) := by
  unfold run
  split
  · next after observed => rw [observed]
  · next after crash observed =>
      rw [observed] at fine
      cases fine

/-- An emission leaves the session where its events lead, whatever its outcome. -/
theorem run_fst {α : Type} (session : Session) (emission : Emission Crash α) :
    (session.run emission).1 = (session.observeAll emission.events).1 := by
  unfold run
  split
  · next after observed => rw [observed]
  · next after crash observed => rw [observed]

theorem generate_program {root : Node} (program : root.kind = "Program") (session : Session)
    (found : String) :
    session.generate (.node root) found =
      ((session.render (.node root) {}).1,
        match (session.render (.node root) {}).2 with
        | .ok text => .ok (session.options.openTag ++ text)
        | .error crash => .error (.crash crash)) := by
  have known : programOf (.node root) found = .ok root := if_pos program
  unfold generate
  rw [known]
  dsimp only
  split
  · next after text rendered => rw [rendered]
  · next after crash rendered => rw [rendered]

theorem observed_of_run {α : Type} {session : Session} {emission : Emission Crash α} {result : α}
    (fine : (session.run emission).2 = .ok result) :
    (session.observeAll emission.events).2 = .ok () := by
  unfold run at fine
  split at fine
  · next after observed => rw [observed]
  · next after crash observed => cases fine

/-- Only a program changes the session, and only by its rendering. Nothing else has a
file. -/
theorem generate_cases (session : Session) (tree : Value) (found : String) :
    (session.generate tree found).1 = session ∧
        (∀ text, (session.generate tree found).2 ≠ .ok text) ∨
      ∃ root, tree = .node root ∧
        (session.generate tree found).1 = (session.render (.node root) {}).1 ∧
        ∀ text, (session.generate tree found).2 = .ok text →
          ∃ rendered, (session.render (.node root) {}).2 = .ok rendered := by
  cases tree with
  | node root =>
      by_cases program : root.kind = "Program"
      · refine .inr ⟨root, rfl, ?_⟩
        rw [generate_program program]
        refine ⟨rfl, fun text fine => ?_⟩
        cases rendered : (session.render (.node root) {}).2 with
        | ok text => exact ⟨text, rfl⟩
        | error crash =>
            rw [rendered] at fine
            cases fine
      · left
        unfold generate programOf
        simp only [program, if_false, true_and]
        exact fun text => nofun
  | scalar value => exact .inl ⟨rfl, fun text => nofun⟩
  | list items => exact .inl ⟨rfl, fun text => nofun⟩
  | record members => exact .inl ⟨rfl, fun text => nofun⟩
  | foreign origin => exact .inl ⟨rfl, fun text => nofun⟩

def after (session : Session) (trees : List (Value × String)) : Session :=
  trees.foldl (fun session tree => (session.generate tree.1 tree.2).1) session

/-! ## The options stay -/

@[simp]
theorem observe_options (session : Session) (event : Event) :
    (session.observe event).1.options = session.options := by
  cases event <;> rfl

@[simp]
theorem observeAll_options (session : Session) (events : List Event) :
    (session.observeAll events).1.options = session.options := by
  induction events generalizing session with
  | nil => rfl
  | cons event rest ih =>
      have first := session.observe_options event
      unfold observeAll
      split
      · next after observed =>
          rw [observed] at first
          rw [ih, first]
      · next after crash observed =>
          rw [observed] at first
          exact first

@[simp]
theorem run_options {α : Type} (session : Session) (emission : Emission Crash α) :
    (session.run emission).1.options = session.options := by
  rw [run_fst, observeAll_options]

@[simp]
theorem generate_options (session : Session) (tree : Value) (found : String) :
    (session.generate tree found).1.options = session.options := by
  rcases session.generate_cases tree found with ⟨same, -⟩ | ⟨root, -, same, -⟩
  · rw [same]
  · rw [same]
    exact run_options session _

@[simp]
theorem after_options (session : Session) (trees : List (Value × String)) :
    (session.after trees).options = session.options := by
  induction trees generalizing session with
  | nil => rfl
  | cons tree rest ih => exact (ih _).trans (session.generate_options tree.1 tree.2)

end PhpRendering.Session
