import PhpRendering.Proofs.Entries

/-!
# The order in time of entries

Of two functions that are entered one after the other, the second stands neither in the
parameters nor in the defaults of the first, and the first not in the body of the second.
No function is entered twice. This holds because a node renders in regions apart from
each other, and a function is entered between its parameters and its body.
-/

namespace PhpRendering

/-! ## Two functions -/

/-- Whether one function may be entered before another one. -/
structure Node.Precedes (first second : Node) : Prop where
  distinct : first.origin ≠ second.origin
  params : ¬ second.origin.IsWithin (first.origin.down (.member "params"))
  defaults : ¬ second.origin.IsWithin (first.origin.down (.member "defaults"))
  body : ¬ first.origin.IsWithin (second.origin.down (.member "body"))

namespace Node.Precedes

variable {first second : Node} {region other : Origin}

/-- Functions that stand apart may be entered in any order. -/
theorem of_apart (apart : region.Apart other) (within : first.origin.IsWithin region)
    (withinToo : second.origin.IsWithin other) : first.Precedes second where
  distinct same := by
    rw [same] at within
    exact apart.elim within withinToo
  params inside := apart.elim ((inside.trans (.down _ _)).trans within) withinToo
  defaults inside := apart.elim ((inside.trans (.down _ _)).trans within) withinToo
  body inside := apart.elim within ((inside.trans (.down _ _)).trans withinToo)

/-- What stands in the parameters or the defaults of a function may be entered before it. -/
theorem of_parameter {name : String} (within : first.origin.IsWithin (second.origin.down (.member name)))
    (outside : name ≠ "body") : first.Precedes second where
  distinct same := by
    rw [same] at within
    exact second.origin.not_isWithin_down _ within
  params inside :=
    first.origin.not_isWithin_down _ ((within.trans (.down _ _)).trans inside)
  defaults inside :=
    first.origin.not_isWithin_down _ ((within.trans (.down _ _)).trans inside)
  body inside := (Origin.apart_of_step_ne (by simpa using outside) _).elim within inside

/-- What stands in the body of a function may be entered after it. -/
theorem of_body (within : second.origin.IsWithin (first.origin.down (.member "body"))) :
    first.Precedes second where
  distinct same := by
    rw [← same] at within
    exact first.origin.not_isWithin_down _ within
  params inside := (Origin.apart_of_step_ne (by decide) _).elim inside within
  defaults inside := (Origin.apart_of_step_ne (by decide) _).elim inside within
  body inside := second.origin.not_isWithin_down _ ((within.trans (.down _ _)).trans inside)

end Node.Precedes

/-! ## Functions in an order -/

/-- Declarations that are entered in some regions of a tree in a possible order. -/
structure Ordered (root : Node) (regions : List Origin) (functions : List Node) : Prop where
  precedes : functions.Pairwise Node.Precedes
  within : ∀ function ∈ functions, ∃ region ∈ regions, function.origin.IsWithin region
  declared : ∀ function ∈ functions,
    function.kind = "FunctionDeclaration" ∧ ∃ original, function.StandsFor root original

namespace Ordered

variable {root : Node} {regions others : List Origin} {functions later : List Node}

theorem nil (root : Node) (regions : List Origin) : Ordered root regions [] :=
  ⟨List.Pairwise.nil, List.forall_mem_nil _, List.forall_mem_nil _⟩

theorem mono (ordered : Ordered root regions functions)
    (larger : ∀ region ∈ regions, ∃ other ∈ others, region.IsWithin other) :
    Ordered root others functions := by
  refine ⟨ordered.precedes, fun function entered => ?_, ordered.declared⟩
  obtain ⟨region, held, within⟩ := ordered.within function entered
  obtain ⟨other, heldToo, deeper⟩ := larger region held
  exact ⟨other, heldToo, within.trans deeper⟩

/-- Functions in regions apart from each other. -/
theorem append (first : Ordered root regions functions) (second : Ordered root others later)
    (apart : ∀ region ∈ regions, ∀ other ∈ others, region.Apart other) :
    Ordered root (regions ++ others) (functions ++ later) where
  precedes := by
    refine List.pairwise_append.mpr ⟨first.precedes, second.precedes, ?_⟩
    intro function entered other enteredToo
    obtain ⟨region, listed, within⟩ := first.within function entered
    obtain ⟨place, listedToo, withinToo⟩ := second.within other enteredToo
    exact .of_apart (apart region listed place listedToo) within withinToo
  within := by
    intro function entered
    rcases List.mem_append.mp entered with held | held
    · obtain ⟨region, listed, within⟩ := first.within function held
      exact ⟨region, List.mem_append_left _ listed, within⟩
    · obtain ⟨region, listed, within⟩ := second.within function held
      exact ⟨region, List.mem_append_right _ listed, within⟩
  declared := List.forall_mem_append.mpr ⟨first.declared, second.declared⟩

/-- A function between what its parameters and what its body enter. -/
theorem declaration {function : Node} {inner : List Node}
    (first : Ordered root
      [function.origin.down (.member "params"), function.origin.down (.member "defaults")] functions)
    (declared : function.kind = "FunctionDeclaration" ∧ ∃ original, function.StandsFor root original)
    (second : Ordered root [function.origin.down (.member "body")] inner) :
    Ordered root [function.origin] (functions ++ function :: inner) := by
  have inParameters : ∀ outer ∈ functions, ∃ name ≠ "body",
      outer.origin.IsWithin (function.origin.down (.member name)) := by
    intro outer entered
    obtain ⟨region, listed, within⟩ := first.within outer entered
    rcases List.mem_cons.mp listed with rfl | last
    · exact ⟨"params", by decide, within⟩
    · rw [List.mem_singleton.mp last] at within
      exact ⟨"defaults", by decide, within⟩
  have inBody : ∀ deeper ∈ inner, deeper.origin.IsWithin (function.origin.down (.member "body")) := by
    intro deeper entered
    obtain ⟨region, listed, within⟩ := second.within deeper entered
    rwa [List.mem_singleton.mp listed] at within
  constructor
  · refine List.pairwise_append.mpr ⟨first.precedes, List.pairwise_cons.mpr ⟨?_, second.precedes⟩, ?_⟩
    · exact fun deeper entered => .of_body (inBody deeper entered)
    · intro outer entered other enteredToo
      obtain ⟨name, different, within⟩ := inParameters outer entered
      rcases List.mem_cons.mp enteredToo with rfl | deeper
      · exact .of_parameter within different
      · exact .of_apart (Origin.apart_of_step_ne (by simpa using different) _) within
          (inBody other deeper)
  · intro other entered
    refine ⟨function.origin, List.mem_singleton_self _, ?_⟩
    rcases List.mem_append.mp entered with held | held
    · obtain ⟨name, -, within⟩ := inParameters other held
      exact within.trans (.down _ _)
    · rcases List.mem_cons.mp held with rfl | deeper
      · exact .refl _
      · exact (inBody other deeper).trans (.down _ _)
  · exact List.forall_mem_append.mpr
      ⟨first.declared, List.forall_mem_cons.mpr ⟨declared, second.declared⟩⟩

end Ordered

theorem Ordered.entering (root : Node) : Entering root fun _ => Ordered root where
  nil _ := Ordered.nil root
  mono := Ordered.mono
  append := Ordered.append
  declaration kind placed _ first second := first.declaration ⟨kind, placed.original⟩ second

/-- The functions that are entered for a tree are entered in an order. -/
theorem Node.IsRoot.ordered {root : Node} (isRoot : root.IsRoot) (options : Options)
    (position : Position) :
    Ordered root [root.origin] (render options (.node root) position).functions :=
  isRoot.enters (Ordered.entering root) options position

end PhpRendering
