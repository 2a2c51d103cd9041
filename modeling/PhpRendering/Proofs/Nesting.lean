import PhpRendering.Proofs.Standing

/-!
# The order of entries

The functions that are entered while a tree is rendered come in the order of a walk
through the tree. Each one is followed by those that are entered in its body, and no
function is entered twice.
-/

namespace PhpRendering

/-! ## Entered functions -/

def Event.function? : Event → Option Node
  | .entered function => some function
  | .reported _ => none

def Emission.functions {ε α : Type} (emission : Emission ε α) : List Node :=
  emission.events.filterMap Event.function?

namespace Emission

variable {ε α β : Type}

@[simp]
theorem functions_fail (failure : ε) : (fail failure : Emission ε α).functions = [] := rfl

@[simp]
theorem functions_outline (emission : Emission ε α) : emission.outline.functions = emission.functions :=
  rfl

@[simp]
theorem functions_insideRule (emission : Emission Crash α) :
    emission.insideRule.functions = emission.functions := by
  unfold functions insideRule
  split <;> rfl

/-- One emission after another enters the functions of the first, then those of the
second unless the first one fails. -/
theorem functions_andThen (first : Emission ε α) (next : α → Emission ε β) :
    (first.andThen next).functions = first.functions ∨
      ∃ result, first.outcome = .ok result ∧
        (first.andThen next).functions = first.functions ++ (next result).functions := by
  obtain ⟨events, outcome⟩ := first
  cases outcome with
  | error failure => exact .inl rfl
  | ok result => exact .inr ⟨result, rfl, List.filterMap_append⟩

end Emission

@[simp]
theorem boundary_functions (emission : Emission Fault Unit) :
    (boundary emission).functions = emission.functions := by
  obtain ⟨events, outcome⟩ := emission
  cases outcome with
  | ok result => rfl
  | error fault =>
      cases fault with
      | crash crash => rfl
      | missing missing =>
          simp [boundary, Emission.functions, Event.function?]

/-- A node enters what its tasks enter. -/
theorem render_functions (options : Options) (node : Node) (position : Position) :
    (render options (.node node) position).functions =
      (perform (render options) (node.tasks options position)).functions := by
  rw [← Emission.functions_outline, render_outline, boundary_functions]

/-- What is no node enters nothing. -/
theorem render_functions_of_other (options : Options) {value : Value} (other : value.node? = none)
    (position : Position) : (render options value position).functions = [] := by
  rw [render_of_node?_eq_none options other]
  rfl

theorem perform_visit_functions (render : Renderer) (source : Source) (value : Value)
    (position : Position) :
    ((Task.visit source value position).perform render).functions =
      (render value position).functions := by
  change (Rule.child render value position).outline.functions = _
  rw [Rule.child_outline, Emission.functions_insideRule, Emission.functions_outline]

/-! ## Entries in the order of the tree -/

structure Node.IsFunctionOf (function root : Node) : Prop where
  original : ∃ original, function.StandsFor root original
  place : (Value.node root).isFunctionAt function.origin.steps = true

/-- Functions entered one after another inside the functions at some places, each one
followed by those in its body. -/
inductive Nested (root : Node) : List Origin → List Node → Prop where
  | nil (around : List Origin) : Nested root around []
  | enter {around : List Origin} {function : Node} {inner rest : List Node}
      (placed : function.IsFunctionOf root)
      (inside : (Value.node root).placesAround function.origin = around)
      (body : Nested root (function.origin :: around) inner) (later : Nested root around rest) :
      Nested root around (function :: (inner ++ rest))

theorem Nested.append {root : Node} {around : List Origin} {first second : List Node}
    (start : Nested root around first) (rest : Nested root around second) :
    Nested root around (first ++ second) := by
  induction start with
  | nil around => exact rest
  | @enter around function inner later placed inside body after ihBody ih =>
      have whole := Nested.enter placed inside body (ih rest)
      rw [← List.append_assoc, ← List.cons_append] at whole
      exact whole

/-- Functions that stand in some regions of a tree, each one once. -/
structure Spread (regions : List Origin) (functions : List Node) : Prop where
  distinct : (functions.map Node.origin).Nodup
  within : ∀ function ∈ functions, ∃ region ∈ regions, function.origin.IsWithin region

namespace Spread

variable {regions others : List Origin} {functions later : List Node}

theorem nil (regions : List Origin) : Spread regions [] :=
  ⟨List.nodup_nil, List.forall_mem_nil _⟩

theorem mono (spread : Spread regions functions)
    (larger : ∀ region ∈ regions, ∃ other ∈ others, region.IsWithin other) :
    Spread others functions := by
  refine ⟨spread.distinct, fun function entered => ?_⟩
  obtain ⟨region, held, within⟩ := spread.within function entered
  obtain ⟨other, heldToo, deeper⟩ := larger region held
  exact ⟨other, heldToo, within.trans deeper⟩

/-- Functions in regions apart from each other. -/
theorem append (first : Spread regions functions) (second : Spread others later)
    (apart : ∀ region ∈ regions, ∀ other ∈ others, region.Apart other) :
    Spread (regions ++ others) (functions ++ later) where
  distinct := by
    rw [List.map_append, List.nodup_append]
    refine ⟨first.distinct, second.distinct, ?_⟩
    intro origin entered other enteredToo same
    subst same
    obtain ⟨function, held, rfl⟩ := List.mem_map.mp entered
    obtain ⟨outer, heldToo, same⟩ := List.mem_map.mp enteredToo
    obtain ⟨region, listed, within⟩ := first.within function held
    obtain ⟨other, listedToo, withinToo⟩ := second.within outer heldToo
    rw [same] at withinToo
    exact (apart region listed other listedToo).elim within withinToo
  within := by
    intro function entered
    rcases List.mem_append.mp entered with held | held
    · obtain ⟨region, listed, within⟩ := first.within function held
      exact ⟨region, List.mem_append_left _ listed, within⟩
    · obtain ⟨region, listed, within⟩ := second.within function held
      exact ⟨region, List.mem_append_right _ listed, within⟩

/-- A function among others that stand below its fields. -/
theorem insert {function : Node} (spread : Spread regions (functions ++ later))
    (below : ∀ region ∈ regions, ∃ step, region = function.origin.down step) :
    Spread [function.origin] (functions ++ function :: later) where
  distinct := by
    rw [List.map_append, List.map_cons, List.perm_middle.nodup_iff, ← List.map_append,
      List.nodup_cons]
    refine ⟨fun among => ?_, spread.distinct⟩
    obtain ⟨inner, held, same⟩ := List.mem_map.mp among
    obtain ⟨region, listed, within⟩ := spread.within inner held
    obtain ⟨step, rfl⟩ := below region listed
    rw [same] at within
    exact function.origin.not_isWithin_down step within
  within := by
    intro inner entered
    refine ⟨function.origin, List.mem_singleton_self _, ?_⟩
    rcases List.mem_append.mp entered with held | held
    · obtain ⟨region, listed, within⟩ := spread.within inner (List.mem_append_left _ held)
      obtain ⟨step, rfl⟩ := below region listed
      exact within.trans (.down _ _)
    · rcases List.mem_cons.mp held with rfl | held
      · exact .refl _
      · obtain ⟨region, listed, within⟩ := spread.within inner (List.mem_append_right _ held)
        obtain ⟨step, rfl⟩ := below region listed
        exact within.trans (.down _ _)

end Spread

/-- Functions entered in some regions of a tree, in the order of the tree and each one
once. -/
structure Settled (root : Node) (around regions : List Origin) (functions : List Node) :
    Prop where
  nested : Nested root around functions
  spread : Spread regions functions

namespace Settled

variable {root : Node} {around regions others : List Origin} {functions later : List Node}

theorem nil (root : Node) (around regions : List Origin) : Settled root around regions [] :=
  ⟨.nil around, .nil regions⟩

theorem mono (settled : Settled root around regions functions)
    (larger : ∀ region ∈ regions, ∃ other ∈ others, region.IsWithin other) :
    Settled root around others functions :=
  ⟨settled.nested, settled.spread.mono larger⟩

theorem append (first : Settled root around regions functions)
    (second : Settled root around others later)
    (apart : ∀ region ∈ regions, ∀ other ∈ others, region.Apart other) :
    Settled root around (regions ++ others) (functions ++ later) :=
  ⟨first.nested.append second.nested, first.spread.append second.spread apart⟩

/-- A function between what its parameters and what its body enter. -/
theorem declaration {function : Node} {inner : List Node}
    (first : Settled root around
      [function.origin.down (.member "params"), function.origin.down (.member "defaults")] functions)
    (placed : function.IsFunctionOf root)
    (inside : (Value.node root).placesAround function.origin = around)
    (second : Settled root (function.origin :: around) [function.origin.down (.member "body")] inner) :
    Settled root around [function.origin] (functions ++ function :: inner) where
  nested := by
    have body := Nested.enter placed inside second.nested (.nil around)
    rw [List.append_nil] at body
    exact first.nested.append body
  spread := by
    refine (first.spread.append second.spread ?_).insert ?_
    · intro region held other heldToo
      cases List.mem_singleton.mp heldToo
      rcases List.mem_cons.mp held with rfl | last
      · exact Origin.apart_of_step_ne (by decide) _
      · rw [List.mem_singleton.mp last]
        exact Origin.apart_of_step_ne (by decide) _
    · intro region held
      rcases List.mem_append.mp held with field | body
      · rcases List.mem_cons.mp field with params | defaults
        · exact ⟨_, params⟩
        · exact ⟨_, List.mem_singleton.mp defaults⟩
      · exact ⟨_, List.mem_singleton.mp body⟩

end Settled

end PhpRendering
