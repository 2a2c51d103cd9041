import PhpRendering.Proofs.OpenScopes

/-!
# Entries one after another

Functions that are entered in the order of a tree keep a record nested, whatever was left
open before, and leave the record inside the functions where it was.
-/

namespace PhpRendering

namespace ScopeRecord

variable {record : ScopeRecord} {forest : List Value} {functions later : List Node}
  {around others : List Origin}

/-- The record after some functions were entered one after another, up to the first
entry that fails. -/
def enterAll (record : ScopeRecord) : List Node → ScopeRecord × Except Crash Unit
  | [] => (record, .ok ())
  | function :: rest =>
      match record.enter function with
      | (next, .ok ()) => next.enterAll rest
      | (next, .error crash) => (next, .error crash)

theorem enterAll_append (record : ScopeRecord) (first second : List Node) :
    record.enterAll (first ++ second) =
      match record.enterAll first with
      | (next, .ok ()) => next.enterAll second
      | (next, .error crash) => (next, .error crash) := by
  induction first generalizing record with
  | nil => rfl
  | cons function rest ih =>
      simp only [List.cons_append, enterAll]
      split
      · exact ih _
      · rfl

theorem enterAll_singleton (record : ScopeRecord) (function : Node) :
    record.enterAll [function] = record.enter function := by
  simp only [enterAll]
  split
  · next next same => exact same.symm
  · next next crash same => exact same.symm

/-- The first function of some that were all entered was entered. -/
theorem enter_ok_of_enterAll {function : Node} {rest : List Node}
    (fine : (record.enterAll (function :: rest)).2 = .ok ()) :
    (record.enter function).2 = .ok () := by
  rw [enterAll] at fine
  generalize record.enter function = entry at fine
  obtain ⟨next, outcome⟩ := entry
  cases outcome with
  | error crash => cases fine
  | ok done => rfl

theorem enterAll_cons {function : Node} {rest : List Node}
    (fine : (record.enter function).2 = .ok ()) :
    record.enterAll (function :: rest) = (record.enter function).1.enterAll rest := by
  rw [enterAll]
  generalize record.enter function = entry at fine
  obtain ⟨next, outcome⟩ := entry
  cases fine
  rfl

theorem enterAll_cons_of_error {function : Node} {rest : List Node} {crash : Crash}
    (failed : (record.enter function).2 = .error crash) :
    record.enterAll (function :: rest) = ((record.enter function).1, .error crash) := by
  rw [enterAll]
  generalize record.enter function = entry at failed
  obtain ⟨next, outcome⟩ := entry
  cases failed
  rfl

structure AreNew (record : ScopeRecord) (functions : List Node) : Prop where
  unowned : ∀ function ∈ functions, ∀ id, ¬ record.Owns id function.origin
  distinct : (functions.map Node.origin).Nodup

/-- What entries of some functions make of a record: it grows and stays nested, and has
no new scopes of other functions. Unless an entry failed, each of the functions has its
scope, and the record is inside the functions at some places. -/
structure Continues (record : ScopeRecord) (entry : ScopeRecord × Except Crash Unit)
    (forest : List Value) (functions : List Node) (around : List Origin) : Prop where
  grown : Extends record entry.1
  nested : entry.1.IsNested forest
  owned : ∀ id origin, entry.1.Owns id origin → record.Owns id origin ∨
    ∃ function ∈ functions, function.origin = origin
  counted : entry.2 = .ok () → ∀ function ∈ functions,
    ∃ id ∈ entry.1.functions, entry.1.Owns id function.origin
  inside : entry.2 = .ok () → entry.1.IsInside around

theorem AreNew.left (new : record.AreNew (functions ++ later)) : record.AreNew functions := by
  obtain ⟨unowned, distinct⟩ := new
  rw [List.map_append] at distinct
  exact ⟨fun function held => unowned function (List.mem_append_left _ held),
    (List.nodup_append.mp distinct).1⟩

/-- Functions that were new are so after others were entered. -/
theorem AreNew.after {entry : ScopeRecord × Except Crash Unit}
    (new : record.AreNew (functions ++ later))
    (continues : Continues record entry forest functions around) : entry.1.AreNew later := by
  obtain ⟨unowned, distinct⟩ := new
  rw [List.map_append] at distinct
  obtain ⟨-, rest, apart⟩ := List.nodup_append.mp distinct
  refine ⟨fun function held id owns => ?_, rest⟩
  rcases continues.owned id _ owns with old | ⟨other, heldToo, same⟩
  · exact unowned function (List.mem_append_right _ held) id old
  · exact apart _ (List.mem_map_of_mem heldToo) _ (List.mem_map_of_mem held) same

namespace Continues

/-- Nothing is entered. -/
theorem nil (nested : record.IsNested forest) (inside : record.IsInside around) :
    Continues record (record.enterAll []) forest [] around :=
  ⟨.refl record, nested, fun _ _ owns => .inl owns, fun _ => List.forall_mem_nil _,
    fun _ => inside⟩

/-- Entries after entries. -/
theorem append (first : Continues record (record.enterAll functions) forest functions around)
    (second : (record.enterAll functions).2 = .ok () →
      Continues (record.enterAll functions).1 ((record.enterAll functions).1.enterAll later) forest
        later others) :
    Continues record (record.enterAll (functions ++ later)) forest (functions ++ later) others := by
  rw [enterAll_append]
  obtain ⟨grown, nested, owned, counted, -⟩ := first
  have owned' : ∀ id origin, (record.enterAll functions).1.Owns id origin → record.Owns id origin ∨
      ∃ function ∈ functions ++ later, function.origin = origin := by
    intro id origin owns
    refine (owned id origin owns).imp_right fun found => ?_
    obtain ⟨function, held, same⟩ := found
    exact ⟨function, List.mem_append_left _ held, same⟩
  revert grown nested owned' counted second
  generalize record.enterAll functions = entry
  obtain ⟨next, outcome⟩ := entry
  intro second grown nested counted owned'
  cases outcome with
  | error crash => exact ⟨grown, nested, owned', nofun, nofun⟩
  | ok result =>
      obtain ⟨more, nested, owned, countedLater, inside⟩ := second rfl
      refine ⟨grown.trans more, nested, fun id origin owns => ?_, fun fine function held => ?_,
        inside⟩
      · rcases owned id origin owns with old | ⟨function, held, same⟩
        · exact owned' id origin old
        · exact .inr ⟨function, List.mem_append_right _ held, same⟩
      · rcases List.mem_append.mp held with first | later
        · obtain ⟨id, entered, owns⟩ := counted rfl function first
          exact ⟨id, more.functions id entered, more.owns owns⟩
        · exact countedLater fine function later

end Continues

/-- The entry of one function leads inside it. -/
theorem IsNested.enter_continues (nested : record.IsNested forest) (sound : IsForest forest)
    {function : Node} (placed : function.IsPlaced forest)
    (fresh : ∀ id, ¬ record.Owns id function.origin)
    (inside : record.IsInside (enclosing forest function.origin)) :
    Continues record (record.enter function) forest [function]
      (function.origin :: enclosing forest function.origin) := by
  obtain ⟨left, closed, closes, after⟩ := record.enter_cases function
  obtain ⟨grown, back⟩ := closes.same
  have leftNested := nested.closes closes
  rcases after with ⟨refused, failed⟩ | ⟨stopped, opens⟩
  · refine ⟨?_, ?_, fun id origin owns => .inl ?_, fun fine => absurd fine failed,
      fun fine => absurd fine failed⟩
    · rwa [refused]
    · rwa [refused]
    · rw [refused] at owns
      exact back.owns owns
  · have isPath := grown.path (nested.path_of_closes sound placed fresh inside closes stopped)
    refine ⟨grown.trans opens.grown, ?_, ?_, fun fine => ?_, fun fine => opens.isInside fine isPath⟩
    · exact opens.isNested leftNested placed (fun id owns => fresh id (back.owns owns)) isPath
    · intro id origin owns
      rcases opens.owns_cases owns with old | ⟨_, same⟩
      · exact .inl (back.owns old)
      · exact .inr ⟨function, List.mem_singleton_self _, same.symm⟩
    · exact List.forall_mem_singleton.mpr ⟨_, opens.mem_functions fine, opens.owns_new⟩

/-- Whoever is inside a function is inside the functions around it. -/
theorem IsInside.outward {origin : Origin} (inside : record.IsInside (origin :: around))
    (other : origin ∉ around) : record.IsInside around := by
  obtain ⟨left, path, opened, isPath, strangers⟩ := inside
  cases isPath with
  | @inside id origin outer around entered owns rest =>
      refine ⟨left ++ [id], outer, ?_, rest, fun inner held => ?_⟩
      · rw [opened, List.append_assoc]
        rfl
      · rcases List.mem_append.mp held with held | held
        · obtain ⟨place, owns, stranger⟩ := strangers inner held
          exact ⟨place, owns, fun listed => stranger (List.mem_cons_of_mem _ listed)⟩
        · cases List.mem_singleton.mp held
          exact ⟨origin, owns, other⟩

end ScopeRecord

/-- Functions entered in the order of a tree keep a record nested and lead back to where
it was. -/
theorem Nested.continues {forest : List Value} (sound : IsForest forest) {root : Node}
    (planted : forest[root.origin.tree]? = some (.node root)) {around : List Origin}
    {functions : List Node} (ordered : Nested root around functions) {record : ScopeRecord}
    (nested : record.IsNested forest) (inside : record.IsInside around)
    (new : record.AreNew functions) :
    record.Continues (record.enterAll functions) forest functions around := by
  obtain ⟨isRoot, -⟩ := sound.root _ root planted
  induction ordered generalizing record with
  | nil around => exact .nil nested inside
  | @enter around function inner rest placed deeper body later ihBody ihLater =>
      have planted' : forest[function.origin.tree]? = some (.node root) := by
        rw [placed.tree_eq isRoot]
        exact planted
      have same : enclosing forest function.origin = around :=
        (enclosing_of_root planted').trans deeper
      have entry : record.Continues (record.enterAll [function]) forest [function]
          (function.origin :: around) := by
        rw [ScopeRecord.enterAll_singleton, ← same]
        refine nested.enter_continues sound ⟨root, planted', placed⟩ ?_ (same ▸ inside)
        exact new.unowned function (List.mem_cons_self ..)
      refine @ScopeRecord.Continues.append _ _ [function] _ _ _ entry fun fine => ?_
      have newInner := @ScopeRecord.AreNew.after _ _ [function] _ _ _ new entry
      have middle := ihBody entry.nested (entry.inside fine) newInner.left
      refine middle.append fun fineToo => ?_
      refine ihLater middle.nested ?_ (newInner.after middle)
      refine (middle.inside fineToo).outward fun listed => ?_
      rw [← deeper] at listed
      exact Value.ne_of_mem_placesAround listed rfl

end PhpRendering
