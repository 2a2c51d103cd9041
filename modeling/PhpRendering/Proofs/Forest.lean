import PhpRendering.Proofs.Nesting
import PhpRendering.Scope.Basic

/-!
# Functions that hold functions

Trees that are rendered one after another are numbered in that order. The body of a
function holds another function exactly when the first one is around the second one in
one of the trees; functions of different trees never hold each other.
-/

namespace PhpRendering

/-- Converted trees with their numbers, in which functions have nodes as bodies. -/
structure IsForest (forest : List Value) : Prop where
  root : ∀ (index : Nat) (root : Node), forest[index]? = some (.node root) →
    root.IsRoot ∧ root.origin.tree = index
  bodies : ∀ tree ∈ forest, tree.HasBodies

/-- The places of the functions of a tree around a place, innermost first. -/
def enclosing (forest : List Value) (place : Origin) : List Origin :=
  (forest.getD place.tree .null).placesAround place

def Node.IsPlaced (function : Node) (forest : List Value) : Prop :=
  ∃ root, forest[function.origin.tree]? = some (.node root) ∧ function.IsFunctionOf root

theorem enclosing_of_root {forest : List Value} {root : Node} {place : Origin}
    (planted : forest[place.tree]? = some (.node root)) :
    enclosing forest place = (Value.node root).placesAround place := by
  unfold enclosing
  rw [List.getD_eq_getElem?_getD, planted]
  rfl

/-- Converted trees are located. -/
theorem IsForest.of_ofJson {forest : List Value}
    (converted : ∀ index tree, forest[index]? = some tree →
      ∃ form source, tree = Value.ofJson form index source)
    (bodies : ∀ tree ∈ forest, tree.HasBodies) : IsForest forest := by
  refine ⟨fun index root planted => ?_, bodies⟩
  obtain ⟨form, source, same⟩ := converted index _ planted
  obtain ⟨isRoot, origin⟩ := Node.isRoot_of_ofJson same.symm
  exact ⟨isRoot, congrArg Origin.tree origin⟩

/-! ## Bodies of functions -/

namespace Node.IsFunctionOf

variable {function root : Node}

theorem tree_eq (isRoot : root.IsRoot) (placed : function.IsFunctionOf root) :
    function.origin.tree = root.origin.tree := by
  obtain ⟨original, stands⟩ := placed.original
  rw [stands.origin]
  exact (stands.leads.descendant isRoot).2

/-- The body of a function is the one of its original. -/
theorem body (isRoot : root.IsRoot) (bodies : (Value.node root).HasBodies)
    (placed : function.IsFunctionOf root) :
    ∃ original body, function.origin = original.origin ∧ root.Leads original ∧
      function.field "body" = .node body ∧ original.field "body" = .node body := by
  obtain ⟨original, stands⟩ := placed.original
  have place := placed.place
  rw [stands.origin] at place
  obtain ⟨body, held⟩ := bodies _ original place (stands.leads.descendant isRoot).1
  have same := (stands.fields "body").resolve_right fun declared => absurd declared.2 (by decide)
  exact ⟨original, body, stands.origin, stands.leads, same.trans held, held⟩

end Node.IsFunctionOf

theorem Origin.ext {first second : Origin} (tree : first.tree = second.tree)
    (steps : first.steps = second.steps) : first = second := by
  cases first
  cases second
  cases tree
  cases steps
  rfl

/-- A place is not around itself. -/
theorem Value.ne_of_mem_placesAround {root : Value} {place outer : Origin}
    (around : outer ∈ root.placesAround place) : outer ≠ place := by
  obtain ⟨steps, listed, rfl⟩ := List.mem_map.mp around
  rintro same
  have deeper := (mem_functionsAround_iff.mp listed).2.length_le
  rw [← same] at deeper
  exact Nat.not_succ_le_self _ deeper

/-- The body of a function holds the body of another one exactly when it is the same
function or lies around it. -/
theorem Node.IsFunctionOf.contains_iff {root outer inner body innerBody : Node}
    (isRoot : root.IsRoot) (bodies : (Value.node root).HasBodies)
    (placed : outer.IsFunctionOf root) (placedToo : inner.IsFunctionOf root)
    (held : outer.field "body" = .node body) (heldToo : inner.field "body" = .node innerBody) :
    body.contains innerBody.origin = true ↔
      outer.origin = inner.origin ∨
        outer.origin ∈ (Value.node root).placesAround inner.origin := by
  obtain ⟨original, _, origin, leads, found, inside⟩ := placed.body isRoot bodies
  obtain ⟨innerOriginal, _, innerOrigin, innerLeads, innerFound, innerInside⟩ :=
    placedToo.body isRoot bodies
  cases held.symm.trans found
  cases heldToo.symm.trans innerFound
  have toBody := Node.Leads.field leads inside
  have place : body.origin = outer.origin.down (.member "body") := by
    rw [origin]
    exact leads.origin_field isRoot inside
  have innerPlace : innerBody.origin = inner.origin.down (.member "body") := by
    rw [innerOrigin]
    exact innerLeads.origin_field isRoot innerInside
  have tree : outer.origin.tree = inner.origin.tree :=
    (placed.tree_eq isRoot).trans (placedToo.tree_eq isRoot).symm
  constructor
  · intro contained
    have below : innerBody.origin.IsWithin body.origin :=
      (toBody.isLocated isRoot.located).isWithin_of_leadsTo contained
    rw [place, innerPlace] at below
    rcases List.suffix_cons_iff.mp below.2 with same | deeper
    · exact .inl (Origin.ext tree (List.cons.inj same).2)
    · refine .inr (List.mem_map.mpr ⟨outer.origin.steps, ?_, Origin.ext tree.symm rfl⟩)
      exact Value.mem_functionsAround_iff.mpr ⟨placed.place, deeper⟩
  · rintro (same | around)
    · rw [innerPlace, ← same, ← place]
      exact body.contains_self
    · obtain ⟨steps, listed, same⟩ := List.mem_map.mp around
      rw [innerOrigin] at listed
      obtain ⟨function, holder, toFunction, functionOrigin, functionHeld, toInner⟩ :=
        innerLeads.of_mem_functionsAround isRoot bodies listed
      have toHolder := Node.Leads.field toFunction functionHeld
      have samePlace : holder.origin.steps = body.origin.steps := by
        rw [place, toFunction.origin_field isRoot functionHeld, functionOrigin, ← same]
        rfl
      have known := (toHolder.descendant isRoot).1
      rw [samePlace, (toBody.descendant isRoot).1] at known
      cases known
      apply toInner.contains
      apply Node.contains_of_field
      rw [innerInside]
      exact innerBody.contains_self

/-! ## Scopes of functions -/

theorem Scope.holdsBodyOf_node {scope : Scope} {outer inner body innerBody : Node}
    (owner : scope.function = some outer) (held : outer.field "body" = .node body)
    (heldToo : inner.field "body" = .node innerBody) :
    scope.holdsBodyOf inner = .ok (body.contains innerBody.origin) := by
  unfold Scope.holdsBodyOf Scope.holds
  simp only [owner, Node.occurrence, held, heldToo, Value.isNull, Bool.false_eq_true, if_false]
  split
  · next same =>
      have origin : body.origin = innerBody.origin := beq_iff_eq.mp same
      rw [← origin, body.contains_self]
  · rfl

/-- The scope of a function holds the functions that it is around, and itself. -/
theorem Scope.holdsBodyOf_iff {forest : List Value} (sound : IsForest forest) {scope : Scope}
    {outer inner : Node} (owner : scope.function = some outer) (placed : outer.IsPlaced forest)
    (placedToo : inner.IsPlaced forest) :
    ∃ inside, scope.holdsBodyOf inner = .ok inside ∧
      (inside = true ↔ outer.origin = inner.origin ∨ outer.origin ∈ enclosing forest inner.origin) := by
  obtain ⟨root, planted, function⟩ := placed
  obtain ⟨other, plantedToo, functionToo⟩ := placedToo
  obtain ⟨isRoot, tree⟩ := sound.root _ root planted
  obtain ⟨isRootToo, treeToo⟩ := sound.root _ other plantedToo
  have bodies := sound.bodies _ (List.mem_of_getElem? planted)
  have bodiesToo := sound.bodies _ (List.mem_of_getElem? plantedToo)
  obtain ⟨original, body, origin, leads, held, inside⟩ := function.body isRoot bodies
  obtain ⟨innerOriginal, innerBody, innerOrigin, innerLeads, innerHeld, innerInside⟩ :=
    functionToo.body isRootToo bodiesToo
  refine ⟨_, Scope.holdsBodyOf_node owner held innerHeld, ?_⟩
  rw [enclosing_of_root plantedToo]
  by_cases same : outer.origin.tree = inner.origin.tree
  · rw [same, plantedToo] at planted
    cases planted
    exact function.contains_iff isRoot bodies functionToo held innerHeld
  · constructor
    · intro contained
      have toBody := Node.Leads.field leads inside
      have below : innerBody.origin.IsWithin body.origin :=
        (toBody.isLocated isRoot.located).isWithin_of_leadsTo contained
      rw [leads.origin_field isRoot inside, innerLeads.origin_field isRootToo innerInside,
        ← origin, ← innerOrigin] at below
      exact absurd below.1.symm same
    · rintro (equal | around)
      · exact absurd (congrArg Origin.tree equal) same
      · obtain ⟨steps, _, equal⟩ := List.mem_map.mp around
        exact absurd (congrArg Origin.tree equal).symm same

end PhpRendering
