import PhpRendering.Tree.Occurrence

/-!
# Paths in trees

The value that some steps lead to from a value. Lists have positions, which count
from the end when they are negative; nodes and records have members. What is looked
for in a node or record and not there is nothing, but a list has to reach as far as
it is asked.
-/

namespace PhpRendering

inductive PathStep where
  | member (name : String)
  | position (number : Int)
deriving DecidableEq, Repr

inductive PathError where
  /-- the value has no parts -/
  | noParts
  /-- a list has no names for its items -/
  | nameInList
  /-- the position lies beyond the items -/
  | beyondItems
deriving DecidableEq, Repr

def indexAt (number : Int) (count : Nat) : Option Nat :=
  if 0 ≤ number then if number < count then some number.toNat else none
  else if 0 ≤ number + count then some (number + count).toNat else none

namespace Occurrence

def item (here : Occurrence) (items : List Value) (number : Int) : Except PathError Occurrence :=
  match indexAt number items.length with
  | some index => .ok ⟨items.getD index .null, here.origin.down (.item index)⟩
  | none => .error .beyondItems

def down (here : Occurrence) (step : PathStep) : Except PathError Occurrence :=
  match here.value, step with
  | .list items, .position number => here.item items number
  | .list _, .member _ => .error .nameInList
  | .node parent, .member name => .ok (parent.occurrence name)
  | .record members, .member name =>
      .ok ⟨(members.lookup name).getD .null, here.origin.down (.member name)⟩
  | .node _, .position _ => .ok ⟨.null, here.origin⟩
  | .record _, .position _ => .ok ⟨.null, here.origin⟩
  | _, _ => .error .noParts

def follow (here : Occurrence) : List PathStep → Except PathError Occurrence
  | [] => .ok here
  | step :: rest => do (← here.down step).follow rest

@[simp]
theorem follow_nil (here : Occurrence) : here.follow [] = .ok here := rfl

theorem follow_cons (here : Occurrence) (step : PathStep) (rest : List PathStep) :
    here.follow (step :: rest) = (here.down step).bind fun next => next.follow rest := rfl

/-- Steps one after another lead to the same value as all steps at once. -/
theorem follow_append (here : Occurrence) (first second : List PathStep) :
    here.follow (first ++ second) = (here.follow first).bind fun next => next.follow second := by
  induction first generalizing here with
  | nil => rfl
  | cons step rest ih =>
      rw [List.cons_append, follow_cons, follow_cons]
      cases here.down step with
      | error failure => rfl
      | ok next => exact ih next

end Occurrence

end PhpRendering
