import PhpRendering.Proofs.Forest
import PhpRendering.Proofs.Recording

/-!
# Open scopes and enclosing functions

The record hears of entries only, yet after each entry the open scopes, from some point
outwards, are those of the functions around the place where the tree is being rendered.
Whatever else is open inside them was left long ago, perhaps in an earlier tree, and is
closed before the next scope is opened.
-/

namespace PhpRendering

namespace ScopeRecord

variable {record after : ScopeRecord} {forest : List Value} {id : ScopeId} {origin : Origin}
  {around : List Origin} {function : Node}

/-! ## Scopes and their functions -/

def Owns (record : ScopeRecord) (id : ScopeId) (origin : Origin) : Prop :=
  ∃ parent function, record.frames[id]? = some (parent, some function) ∧ function.origin = origin

/-- Open scopes that are those of the functions at some places, and then that of the
program. -/
inductive Path (record : ScopeRecord) : List ScopeId → List Origin → Prop where
  | program : Path record [programId] []
  | inside {id : ScopeId} {origin : Origin} {outer : List ScopeId} {around : List Origin}
      (entered : id ∈ record.functions) (owns : record.Owns id origin)
      (rest : Path record outer around) : Path record (id :: outer) (origin :: around)

/-- Whether a record is inside the functions at some places: their scopes are open, and
further inside only scopes of other functions. -/
def IsInside (record : ScopeRecord) (around : List Origin) : Prop :=
  ∃ left path, record.openScopes = left ++ path ∧ record.Path path around ∧
    ∀ id ∈ left, ∃ origin, record.Owns id origin ∧ origin ∉ around

def Encloses (record : ScopeRecord) (parent : ScopeId) : List Origin → Prop
  | [] => parent = programId
  | inner :: _ => parent ∈ record.functions ∧ record.Owns parent inner

/-- A record in which every entered function has the scope of the innermost function
around it as parent. -/
structure IsNested (record : ScopeRecord) (forest : List Value) : Prop where
  program : record.frames[programId]? = some (none, none)
  owned : ∀ (id : ScopeId) frame, record.frames[id]? = some frame → id ≠ programId →
    ∃ parent function, frame = (some parent, some function) ∧ parent < id ∧
      function.IsPlaced forest
  distinct : ∀ id other origin, record.Owns id origin → record.Owns other origin → id = other
  opened : record.IsInside []
  entered : ∀ id ∈ record.functions, ∃ parent function,
    record.frames[id]? = some (some parent, some function) ∧
      record.Encloses parent (enclosing forest function.origin)

theorem scope_of_frame {parent : Option ScopeId} {owner : Option Node}
    (found : record.frames[id]? = some (parent, owner)) :
    (record.scope id).parent = parent ∧ (record.scope id).function = owner := by
  unfold frames at found
  rw [List.getElem?_map, Option.map_eq_some_iff] at found
  obtain ⟨scope, place, same⟩ := found
  unfold ScopeRecord.scope
  rw [List.getD_eq_getElem?_getD, place]
  exact ⟨congrArg Prod.fst same, congrArg Prod.snd same⟩

theorem lt_of_frame {frame : Option ScopeId × Option Node} (found : record.frames[id]? = some frame) :
    id < record.scopes.length := by
  obtain ⟨bound, _⟩ := List.getElem?_eq_some_iff.mp found
  unfold frames at bound
  rwa [List.length_map] at bound

/-! ## Records that grow -/

structure Extends (record after : ScopeRecord) : Prop where
  frames : record.frames <+: after.frames
  functions : ∀ id ∈ record.functions, id ∈ after.functions

namespace Extends

theorem refl (record : ScopeRecord) : Extends record record :=
  ⟨⟨[], List.append_nil _⟩, fun _ entered => entered⟩

theorem trans {first second third : ScopeRecord} (start : Extends first second)
    (rest : Extends second third) : Extends first third :=
  ⟨start.frames.trans rest.frames, fun id entered =>
    rest.functions id (start.functions id entered)⟩

variable (grown : Extends record after)

include grown

theorem frame {frame : Option ScopeId × Option Node} (found : record.frames[id]? = some frame) :
    after.frames[id]? = some frame := by
  obtain ⟨more, same⟩ := grown.frames
  obtain ⟨bound, _⟩ := List.getElem?_eq_some_iff.mp found
  rw [← same, List.getElem?_append_left bound]
  exact found

theorem owns (owns : record.Owns id origin) : after.Owns id origin := by
  obtain ⟨parent, function, found, same⟩ := owns
  exact ⟨parent, function, grown.frame found, same⟩

theorem path {path : List ScopeId} (isPath : record.Path path around) : after.Path path around := by
  induction isPath with
  | program => exact .program
  | inside entered owns rest ih =>
      exact .inside (grown.functions _ entered) (grown.owns owns) ih

theorem encloses (encloses : record.Encloses id around) : after.Encloses id around := by
  cases around with
  | nil => exact encloses
  | cons inner outer =>
      exact ⟨grown.functions id encloses.1, grown.owns encloses.2⟩

end Extends

/-- Closing scopes changes neither the scopes nor the functions. -/
theorem Closes.same {left : ScopeRecord} {closed : List ScopeId}
    (closes : Closes record left function closed) : Extends record left ∧ Extends left record := by
  have frames : left.frames = record.frames := congrArg (List.map frame) closes.scopes
  constructor
  · refine ⟨⟨[], (List.append_nil _).trans frames.symm⟩, fun id entered => ?_⟩
    rwa [closes.functions]
  · refine ⟨⟨[], (List.append_nil _).trans frames⟩, fun id entered => ?_⟩
    rwa [← closes.functions]

/-! ## Scopes that are closed before an entry -/

namespace Path

variable {path : List ScopeId}

theorem ne_nil (isPath : record.Path path around) : path ≠ [] := by
  cases isPath with
  | program => exact List.cons_ne_nil _ _
  | inside entered owns rest => exact List.cons_ne_nil _ _

theorem owned (isPath : record.Path path around) :
    ∀ id ∈ path, id = programId ∨ ∃ origin ∈ around, record.Owns id origin := by
  induction isPath with
  | program => exact List.forall_mem_singleton.mpr (.inl rfl)
  | @inside id origin outer around entered owns rest ih =>
      refine List.forall_mem_cons.mpr ⟨.inr ⟨origin, List.mem_cons_self .., owns⟩, ?_⟩
      intro id held
      refine (ih id held).imp_right fun found => ?_
      obtain ⟨place, listed, owns⟩ := found
      exact ⟨place, List.mem_cons_of_mem _ listed, owns⟩

/-- The innermost scope of a path encloses what is rendered there. -/
theorem encloses {current : ScopeId} {outer : List ScopeId}
    (isPath : record.Path (current :: outer) around) : record.Encloses current around := by
  cases isPath with
  | program => rfl
  | inside entered owns rest => exact ⟨entered, owns⟩

end Path

namespace IsNested

variable (nested : record.IsNested forest)

include nested

theorem holds_program : (record.scope programId).holdsBodyOf function = .ok true := by
  have owner := (scope_of_frame nested.program).2
  unfold Scope.holdsBodyOf Scope.holds
  rw [owner]

/-- A scope that encloses a place is older than the next one. -/
theorem lt_of_encloses {parent : ScopeId} (encloses : record.Encloses parent around) :
    parent < record.scopes.length := by
  cases around with
  | nil =>
      cases encloses
      exact lt_of_frame nested.program
  | cons inner outer =>
      obtain ⟨_, _, found, _⟩ := encloses.2
      exact lt_of_frame found

/-- The scope of a function is younger than its parent, and the function is one of a
tree. -/
theorem owned_of_frame {parent : Option ScopeId}
    (found : record.frames[id]? = some (parent, some function)) :
    ∃ outer, parent = some outer ∧ outer < id ∧ function.IsPlaced forest := by
  have notProgram : id ≠ programId := by
    rintro rfl
    cases nested.program.symm.trans found
  obtain ⟨outer, owner, same, older, placed⟩ := nested.owned id _ found notProgram
  cases same
  exact ⟨outer, rfl, older, placed⟩

/-- The scope of another function holds a function exactly when it is around it. -/
theorem holds_iff (sound : IsForest forest) (owns : record.Owns id origin)
    (placed : function.IsPlaced forest) (fresh : ∀ id, ¬ record.Owns id function.origin) :
    ∃ inside, (record.scope id).holdsBodyOf function = .ok inside ∧
      (inside = true ↔ origin ∈ enclosing forest function.origin) := by
  have other : origin ≠ function.origin := by
    rintro rfl
    exact fresh id owns
  obtain ⟨parent, outer, found, rfl⟩ := owns
  obtain ⟨-, -, -, outerPlaced⟩ := nested.owned_of_frame found
  obtain ⟨inside, held, iff⟩ :=
    Scope.holdsBodyOf_iff sound (scope_of_frame found).2 outerPlaced placed
  refine ⟨inside, held, iff.trans ?_⟩
  simp only [other, false_or]

/-- The scopes on the way to a place hold whatever function stands there. -/
theorem holds_path (sound : IsForest forest) (placed : function.IsPlaced forest)
    (fresh : ∀ id, ¬ record.Owns id function.origin) {path : List ScopeId}
    (isPath : record.Path path (enclosing forest function.origin)) :
    ∀ id ∈ path, (record.scope id).holdsBodyOf function = .ok true := by
  intro id held
  rcases isPath.owned id held with rfl | ⟨origin, listed, owns⟩
  · exact nested.holds_program
  · obtain ⟨inside, same, iff⟩ := nested.holds_iff sound owns placed fresh
    rw [same, iff.mpr listed]

/-- Scopes of functions that are not around a place do not hold the function there. -/
theorem holds_left (sound : IsForest forest) (placed : function.IsPlaced forest)
    (fresh : ∀ id, ¬ record.Owns id function.origin) (owns : record.Owns id origin)
    (stranger : origin ∉ enclosing forest function.origin) :
    (record.scope id).holdsBodyOf function = .ok false := by
  obtain ⟨inside, same, iff⟩ := nested.holds_iff sound owns placed fresh
  rw [same]
  cases inside with
  | true => exact absurd (iff.mp rfl) stranger
  | false => rfl

/-- Closing stops exactly at the scopes of the functions around the one that is entered. -/
theorem path_of_closes (sound : IsForest forest) (placed : function.IsPlaced forest)
    (fresh : ∀ id, ¬ record.Owns id function.origin)
    (inside : record.IsInside (enclosing forest function.origin)) {left : ScopeRecord}
    {closed : List ScopeId} (closes : Closes record left function closed)
    (stopped : left.outer = [] ∨ left.currentScope.holdsBodyOf function = .ok true) :
    record.Path left.openScopes (enclosing forest function.origin) := by
  obtain ⟨strangers, path, opened, isPath, other⟩ := inside
  have holds := nested.holds_path sound placed fresh isPath
  rcases List.append_eq_append_iff.mp (opened.symm.trans closes.opened) with
    ⟨more, tooMany, same⟩ | ⟨more, same, rest⟩
  · -- no scope on the path is closed
    cases more with
    | nil =>
        rw [same] at isPath
        exact isPath
    | cons id more =>
        have refused := closes.outside id (by simp [tooMany])
        rw [holds id (by simp [same])] at refused
        cases refused
  · -- no scope before the path stays open
    cases more with
    | nil =>
        rw [List.nil_append] at rest
        rw [rest]
        exact isPath
    | cons id more =>
        obtain ⟨current, outer⟩ := List.cons.inj rest
        rcases stopped with nothing | held
        · rw [nothing] at outer
          exact absurd (List.append_eq_nil_iff.mp outer.symm).2 isPath.ne_nil
        · obtain ⟨origin, owns, stranger⟩ := other id (by simp [same])
          have refused := nested.holds_left sound placed fresh owns stranger
          unfold currentScope at held
          rw [current] at held
          unfold scope at held refused
          rw [closes.scopes, refused] at held
          cases held

/-- The scope of the program is never closed. -/
theorem opened_of_closes {left : ScopeRecord} {closed : List ScopeId}
    (closes : Closes record left function closed) (grown : Extends record left) :
    left.IsInside [] := by
  obtain ⟨strangers, path, opened, isPath, other⟩ := nested.opened
  rcases List.append_eq_append_iff.mp (opened.symm.trans closes.opened) with
    ⟨more, tooMany, same⟩ | ⟨more, same, rest⟩
  · cases more with
    | nil => exact ⟨[], path, same.symm, grown.path isPath, List.forall_mem_nil _⟩
    | cons id more =>
        have refused := closes.outside id (by simp [tooMany])
        rcases isPath.owned id (by simp [same]) with rfl | ⟨origin, listed, _⟩
        · rw [nested.holds_program] at refused
          cases refused
        · cases listed
  · refine ⟨more, path, rest, grown.path isPath, fun id held => ?_⟩
    obtain ⟨origin, owns, stranger⟩ := other id (by simp [same, held])
    exact ⟨origin, grown.owns owns, stranger⟩

/-- A record stays nested when scopes are closed. -/
theorem closes {left : ScopeRecord} {closed : List ScopeId}
    (closes : Closes record left function closed) : left.IsNested forest := by
  obtain ⟨grown, back⟩ := closes.same
  refine ⟨grown.frame nested.program, ?_, ?_, nested.opened_of_closes closes grown, ?_⟩
  · exact fun id frame found => nested.owned id frame (back.frame found)
  · exact fun id other origin owns ownsToo =>
      nested.distinct id other origin (back.owns owns) (back.owns ownsToo)
  · intro id entered
    obtain ⟨parent, owner, found, encloses⟩ := nested.entered id (back.functions id entered)
    exact ⟨parent, owner, grown.frame found, grown.encloses encloses⟩

end IsNested

/-! ## Entries -/

namespace Opens

variable {left : ScopeRecord} {entry : ScopeRecord × Except Crash Unit}
  (opens : Opens left entry function)

include opens

theorem frame_cases {frame : Option ScopeId × Option Node}
    (found : entry.1.frames[id]? = some frame) :
    left.frames[id]? = some frame ∨
      id = left.scopes.length ∧ frame = (some left.current, some function) := by
  have length : left.frames.length = left.scopes.length := List.length_map _
  rw [opens.frames] at found
  rcases Nat.lt_or_ge id left.frames.length with old | new
  · rw [List.getElem?_append_left old] at found
    exact .inl found
  · rw [List.getElem?_append_right new] at found
    cases gap : id - left.frames.length with
    | zero =>
        rw [gap] at found
        cases found
        have last := Nat.sub_eq_zero_iff_le.mp gap
        exact .inr ⟨(Nat.le_antisymm last new).trans length, rfl⟩
    | succ more =>
        rw [gap] at found
        cases found

theorem frame_new :
    entry.1.frames[left.scopes.length]? = some (some left.current, some function) := by
  have length : left.frames.length = left.scopes.length := List.length_map _
  rw [opens.frames, ← length]
  exact List.getElem?_concat_length

theorem grown : Extends left entry.1 := by
  refine ⟨⟨_, opens.frames.symm⟩, fun id entered => ?_⟩
  rcases opens.functions with more | ⟨same, _⟩
  · rw [more]
    exact List.mem_append_left _ entered
  · rwa [same]

theorem owns_new : entry.1.Owns left.scopes.length function.origin :=
  ⟨_, function, opens.frame_new, rfl⟩

/-- After an entry the scopes of functions are those before it and the new one. -/
theorem owns_cases (owns : entry.1.Owns id origin) :
    left.Owns id origin ∨ id = left.scopes.length ∧ origin = function.origin := by
  obtain ⟨parent, owner, found, same⟩ := owns
  rcases opens.frame_cases found with old | ⟨new, equal⟩
  · exact .inl ⟨parent, owner, old, same⟩
  · cases equal
    exact .inr ⟨new, same.symm⟩

/-- A function counts as entered when its entry succeeds. -/
theorem mem_functions (fine : entry.2 = .ok ()) : left.scopes.length ∈ entry.1.functions := by
  rcases opens.functions with more | ⟨_, failed⟩
  · rw [more]
    exact List.mem_append_right _ (List.mem_singleton_self _)
  · exact absurd fine failed

/-- An entry that succeeds leads inside the function. -/
theorem isInside (fine : entry.2 = .ok ()) (isPath : left.Path left.openScopes around) :
    entry.1.IsInside (function.origin :: around) := by
  have entered := Path.inside (opens.mem_functions fine) opens.owns_new (opens.grown.path isPath)
  exact ⟨[], _, opens.opened, entered, List.forall_mem_nil _⟩

/-- An entry inside the functions around it keeps the record nested. -/
theorem isNested (nested : left.IsNested forest) (placed : function.IsPlaced forest)
    (fresh : ∀ id, ¬ left.Owns id function.origin)
    (isPath : left.Path left.openScopes (enclosing forest function.origin)) :
    entry.1.IsNested forest where
  program := opens.grown.frame nested.program
  owned id frame found notProgram := by
    rcases opens.frame_cases found with old | ⟨rfl, rfl⟩
    · exact nested.owned id frame old notProgram
    · exact ⟨left.current, function, rfl, nested.lt_of_encloses isPath.encloses, placed⟩
  distinct id other origin owns ownsToo := by
    rcases opens.owns_cases owns with old | ⟨rfl, rfl⟩
    · rcases opens.owns_cases ownsToo with oldToo | ⟨rfl, rfl⟩
      · exact nested.distinct id other origin old oldToo
      · exact absurd old (fresh id)
    · rcases opens.owns_cases ownsToo with oldToo | ⟨rfl, _⟩
      · exact absurd oldToo (fresh other)
      · rfl
  opened := by
    obtain ⟨strangers, path, opened, isPath, other⟩ := nested.opened
    refine ⟨left.scopes.length :: strangers, path, ?_, opens.grown.path isPath, ?_⟩
    · rw [opens.opened, opened]
      rfl
    · refine List.forall_mem_cons.mpr ⟨⟨_, opens.owns_new, List.not_mem_nil⟩, fun id held => ?_⟩
      obtain ⟨origin, owns, stranger⟩ := other id held
      exact ⟨origin, opens.grown.owns owns, stranger⟩
  entered id counted := by
    have old (known : id ∈ left.functions) : ∃ parent owner,
        entry.1.frames[id]? = some (some parent, some owner) ∧
          entry.1.Encloses parent (enclosing forest owner.origin) := by
      obtain ⟨parent, owner, found, encloses⟩ := nested.entered id known
      exact ⟨parent, owner, opens.grown.frame found, opens.grown.encloses encloses⟩
    rcases opens.functions with more | ⟨same, _⟩
    · rw [more] at counted
      rcases List.mem_append.mp counted with known | new
      · exact old known
      · cases List.mem_singleton.mp new
        exact ⟨_, function, opens.frame_new, opens.grown.encloses isPath.encloses⟩
    · rw [same] at counted
      exact old counted

end Opens

end ScopeRecord

end PhpRendering
