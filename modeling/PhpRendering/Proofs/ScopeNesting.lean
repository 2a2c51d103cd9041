import PhpRendering.Proofs.Entries
import PhpRendering.Proofs.NestedRuns
import PhpRendering.Proofs.Runs

/-!
# Scopes are nested like functions

A session renders any number of trees with one record. However the renderings end, each
entered function has the scope of the innermost function around it as parent, and its
depth is one more than the number of functions around it. What is around a function is
read off its tree alone.
-/

namespace PhpRendering

/-! ## Depths -/

/-- Around the innermost function are the other ones. -/
theorem enclosing_of_eq_cons {forest : List Value} {place inner : Origin} {outer : List Origin}
    (around : enclosing forest place = inner :: outer) : enclosing forest inner = outer := by
  unfold enclosing Value.placesAround at around
  obtain ⟨steps, rest, found, rfl, rfl⟩ := List.map_eq_cons_iff.mp around
  unfold enclosing Value.placesAround
  rw [Value.functionsAround_of_eq_cons found]

namespace ScopeRecord

variable {record : ScopeRecord} {forest : List Value}

theorem initial_unowned (id : ScopeId) (origin : Origin) : ¬ initial.Owns id origin := by
  rintro ⟨parent, function, found, -⟩
  cases id with
  | zero => cases found
  | succ id => cases found

theorem initial_isNested (forest : List Value) : initial.IsNested forest := by
  refine ⟨rfl, ?_, ?_, ⟨[], [programId], rfl, .program, List.forall_mem_nil _⟩,
    List.forall_mem_nil _⟩
  · intro id frame found notProgram
    cases id with
    | zero => exact absurd rfl notProgram
    | succ id => cases found
  · exact fun id other origin owns => absurd owns (initial_unowned id origin)

theorem chain_of_parent {id parent : ScopeId} (found : (record.scope id).parent = some parent)
    (older : parent < id) : record.chain id = id :: record.chain parent := by
  rw [chain, found]
  simp only [older, if_true]

namespace IsNested

variable (nested : record.IsNested forest)

include nested

theorem chain_program : record.chain programId = [programId] := by
  rw [chain, (scope_of_frame nested.program).1]

/-- The scopes around the scope of an entered function are those of the functions around
it and that of the program. -/
theorem length_chain {id : ScopeId} (entered : id ∈ record.functions) {parent : ScopeId}
    {function : Node} (found : record.frames[id]? = some (some parent, some function)) :
    (record.chain id).length = 2 + (enclosing forest function.origin).length := by
  induction id using Nat.strongRecOn generalizing parent function with
  | ind id ih =>
      obtain ⟨_, _, known, encloses⟩ := nested.entered id entered
      cases found.symm.trans known
      obtain ⟨_, same, older, -⟩ := nested.owned_of_frame found
      cases same
      rw [chain_of_parent (scope_of_frame found).1 older, List.length_cons]
      cases around : enclosing forest function.origin with
      | nil =>
          rw [around] at encloses
          cases encloses
          rw [nested.chain_program]
          rfl
      | cons inner outer =>
          rw [around] at encloses
          obtain ⟨enteredToo, grandparent, owner, foundToo, origin⟩ := encloses
          obtain ⟨_, _, knownToo, _⟩ := nested.entered parent enteredToo
          cases foundToo.symm.trans knownToo
          rw [ih parent older enteredToo foundToo, origin, enclosing_of_eq_cons around,
            List.length_cons]
          omega

theorem depth_eq {id : ScopeId} (entered : id ∈ record.functions) {parent : ScopeId}
    {function : Node} (found : record.frames[id]? = some (some parent, some function)) :
    record.depth id = 1 + (enclosing forest function.origin).length := by
  unfold depth
  rw [nested.length_chain entered found]
  omega

end IsNested

end ScopeRecord

/-! ## Sessions -/

namespace Session

/-- A record hears of the functions of an emission and of nothing else. -/
theorem observeAll_scoping {session : Session} {record : ScopeRecord}
    (scoping : session.recorder = .scoping record) (events : List Event) :
    (session.observeAll events).1.recorder =
        .scoping (record.enterAll (events.filterMap Event.function?)).1 ∧
      (session.observeAll events).2 = (record.enterAll (events.filterMap Event.function?)).2 := by
  induction events generalizing session record with
  | nil => exact ⟨scoping, rfl⟩
  | cons event rest ih =>
      cases event with
      | reported diagnostic => exact ih scoping
      | entered function =>
          have heard : session.observe (.entered function) =
              ({ session with recorder := .scoping (record.enter function).1 },
                (record.enter function).2) := by
            unfold observe Recorder.enter
            rw [scoping]
          have listed : (Event.entered function :: rest).filterMap Event.function? =
              function :: rest.filterMap Event.function? := rfl
          rw [listed]
          simp only [observeAll, ScopeRecord.enterAll, heard]
          generalize record.enter function = entry
          obtain ⟨next, outcome⟩ := entry
          cases outcome with
          | error crash => exact ⟨rfl, rfl⟩
          | ok result => exact ih rfl

/-- A session whose record is nested like some trees and has only functions of the first
ones. -/
structure Records (session : Session) (record : ScopeRecord) (forest : List Value) (count : Nat) :
    Prop where
  scoping : session.recorder = .scoping record
  nested : record.IsNested forest
  older : ∀ id origin, record.Owns id origin → origin.tree < count

variable {session : Session} {record : ScopeRecord} {forest : List Value} {count : Nat}

/-- Whether each function that is entered for a tree has a scope among those of entered
functions. -/
def HasScopes (options : Options) (tree : Value) (record : ScopeRecord) : Prop :=
  ∀ function ∈ (PhpRendering.render options tree {}).functions,
    ∃ id ∈ record.functions, record.Owns id function.origin

theorem HasScopes.mono {options : Options} {tree : Value} {more : ScopeRecord}
    (scopes : HasScopes options tree record) (grown : record.Extends more) :
    HasScopes options tree more := by
  intro function entered
  obtain ⟨id, counted, owns⟩ := scopes function entered
  exact ⟨id, grown.functions id counted, grown.owns owns⟩

/-- The rendering of a program leaves the record nested, whatever its outcome. -/
theorem Records.render (sound : IsForest forest) {root : Node}
    (planted : forest[root.origin.tree]? = some (.node root))
    (records : session.Records record forest root.origin.tree) :
    ∃ next, (session.render (.node root) {}).1.Records next forest (root.origin.tree + 1) ∧
      record.Extends next ∧ ∀ text, (session.render (.node root) {}).2 = .ok text →
        HasScopes session.options (.node root) next := by
  obtain ⟨scoping, nested, older⟩ := records
  obtain ⟨isRoot, -⟩ := sound.root _ root planted
  have settled := isRoot.settled session.options {}
  have sameTree : ∀ function ∈ (PhpRendering.render session.options (.node root) {}).functions,
      function.origin.tree = root.origin.tree := by
    intro function entered
    obtain ⟨region, held, within⟩ := settled.spread.within function entered
    cases List.mem_singleton.mp held
    exact within.1
  have new : record.AreNew (PhpRendering.render session.options (.node root) {}).functions := by
    refine ⟨fun function entered id owns => ?_, settled.spread.distinct⟩
    have earlier := older id _ owns
    rw [sameTree function entered] at earlier
    exact Nat.lt_irrefl _ earlier
  have continues := settled.nested.continues sound planted nested nested.opened new
  have observed := observeAll_scoping scoping
    (PhpRendering.render session.options (.node root) {}).events
  refine ⟨_, ⟨?_, continues.nested, fun id origin owns => ?_⟩, continues.grown, fun text fine => ?_⟩
  · unfold Session.render
    rw [run_fst]
    exact observed.1
  · rcases continues.owned id origin owns with old | ⟨function, entered, rfl⟩
    · exact Nat.lt_succ_of_lt (older id origin old)
    · rw [sameTree function entered]
      exact Nat.lt_succ_self _
  · exact continues.counted (observed.2.symm.trans (observed_of_run fine))

/-- One more tree leaves the record nested. -/
theorem Records.generate (sound : IsForest forest) {tree : Value}
    (planted : forest[count]? = some tree) (records : session.Records record forest count)
    (found : String) :
    ∃ next, (session.generate tree found).1.Records next forest (count + 1) ∧
      record.Extends next ∧ ∀ text, (session.generate tree found).2 = .ok text →
        HasScopes session.options tree next := by
  rcases session.generate_cases tree found with ⟨same, refused⟩ | ⟨root, rfl, same, rendered⟩
  · refine ⟨record, ?_, .refl record, fun text fine => absurd fine (refused text)⟩
    rw [same]
    exact ⟨records.scoping, records.nested, fun id origin owns =>
      Nat.lt_succ_of_lt (records.older id origin owns)⟩
  · obtain ⟨-, rfl⟩ := sound.root count root planted
    obtain ⟨next, follows, grown, scopes⟩ := records.render sound planted
    refine ⟨next, ?_, grown, fun text fine => ?_⟩
    · rwa [same]
    · obtain ⟨letters, fine⟩ := rendered text fine
      exact scopes letters fine

/-- More trees leave the record nested, and those with a file have all their scopes. -/
theorem Records.after (sound : IsForest forest) {trees : List (Value × String)}
    (planted : ∀ (index : Nat) tree, trees[index]? = some tree →
      forest[count + index]? = some tree.1)
    (records : session.Records record forest count) :
    ∃ last, (session.after trees).Records last forest (count + trees.length) ∧
      record.Extends last ∧ ∀ (index : Nat) tree text, trees[index]? = some tree →
        ((session.after (trees.take index)).generate tree.1 tree.2).2 = .ok text →
          HasScopes session.options tree.1 last := by
  induction trees generalizing session record count with
  | nil => exact ⟨record, records, .refl record, fun index tree text place => nomatch place⟩
  | cons first rest ih =>
      obtain ⟨next, follows, grown, scopes⟩ := records.generate sound (planted 0 first rfl) first.2
      have plantedRest (index : Nat) (tree : Value × String) (place : rest[index]? = some tree) :
          forest[count + 1 + index]? = some tree.1 := by
        rw [Nat.add_assoc, Nat.add_comm 1]
        exact planted (index + 1) tree place
      obtain ⟨last, later, more, scopesLater⟩ := ih plantedRest follows
      rw [Nat.add_assoc, Nat.add_comm 1] at later
      refine ⟨last, later, grown.trans more, fun index tree text place fine => ?_⟩
      cases index with
      | zero =>
          cases place
          exact (scopes text fine).mono more
      | succ index =>
          have rendered := scopesLater index tree text place fine
          rwa [generate_options] at rendered

/-- Scopes are nested as functions are in the source. After any trees, rendered one
after another with one record whether there are files for them or not, no two scopes
belong to one function, and each entered function has as parent the scope of the
innermost function around it, or that of the program when there is none, and as depth
one more than the number of functions around it. A tree with a file has scopes for all
functions that were entered. -/
theorem scopes_follow_functions (options : Options) (log : List Diagnostic)
    {trees : List (Value × String)}
    (converted : ∀ (index : Nat) tree, trees[index]? = some tree →
      ∃ form source, tree.1 = Value.ofJson form index source)
    (bodies : ∀ tree ∈ trees, tree.1.HasBodies) :
    ∃ record, (after ⟨options, log, .scoping .initial⟩ trees).recorder = .scoping record ∧
      (∀ id other origin, record.Owns id origin → record.Owns other origin → id = other) ∧
      (∀ (index : Nat) tree text, trees[index]? = some tree →
        ((after ⟨options, log, .scoping .initial⟩ (trees.take index)).generate tree.1 tree.2).2 =
            .ok text →
          HasScopes options tree.1 record) ∧
      ∀ id ∈ record.functions, ∃ function parent,
        (record.scope id).function = some function ∧
        function.IsPlaced (trees.map Prod.fst) ∧
        (record.scope id).parent = some parent ∧
        record.Encloses parent (enclosing (trees.map Prod.fst) function.origin) ∧
        record.depth id = 1 + (enclosing (trees.map Prod.fst) function.origin).length := by
  have sound : IsForest (trees.map Prod.fst) := by
    refine IsForest.of_ofJson (fun index tree planted => ?_) (List.forall_mem_map.mpr bodies)
    rw [List.getElem?_map, Option.map_eq_some_iff] at planted
    obtain ⟨pair, place, rfl⟩ := planted
    exact converted index pair place
  have planted (index : Nat) (tree : Value × String) (place : trees[index]? = some tree) :
      (trees.map Prod.fst)[0 + index]? = some tree.1 := by
    rw [Nat.zero_add, List.getElem?_map, place]
    rfl
  have start : Records ⟨options, log, .scoping .initial⟩ .initial (trees.map Prod.fst) 0 :=
    ⟨rfl, ScopeRecord.initial_isNested _, fun id origin owns =>
      absurd owns (ScopeRecord.initial_unowned id origin)⟩
  obtain ⟨record, ⟨scoping, nested, -⟩, -, scopes⟩ := start.after sound planted
  refine ⟨record, scoping, nested.distinct, scopes, fun id entered => ?_⟩
  obtain ⟨parent, function, found, encloses⟩ := nested.entered id entered
  obtain ⟨atParent, owner⟩ := ScopeRecord.scope_of_frame found
  obtain ⟨-, -, -, placed⟩ := nested.owned_of_frame found
  exact ⟨function, parent, owner, placed, atParent, encloses, nested.depth_eq entered found⟩

end Session

def declarationSource (name : String) (statements : List Json) : Json :=
  .object [("type", .text "FunctionDeclaration"),
    ("id", .object [("type", .text "Identifier"), ("name", .text name)]),
    ("body", .object [("type", .text "BlockStatement"), ("body", .array statements)])]

def nestedSource : Json :=
  .object [("type", .text "Program"),
    ("body", .array [declarationSource "outer" [declarationSource "inner" []]])]

/-- One program read twice, so that its functions are told apart by their trees alone. -/
def nestedTrees : List (Value × String) :=
  [(.ofJson .data 0 nestedSource, ""), (.ofJson .data 1 nestedSource, "")]

theorem nestedTrees_converted (index : Nat) (tree : Value × String)
    (place : nestedTrees[index]? = some tree) :
    ∃ form source, tree.1 = Value.ofJson form index source := by
  match index with
  | 0 =>
      cases place
      exact ⟨_, _, rfl⟩
  | 1 =>
      cases place
      exact ⟨_, _, rfl⟩
  | index + 2 => cases place

theorem nestedTrees_hasBodies : ∀ tree ∈ nestedTrees, tree.1.HasBodies := by
  refine List.forall_mem_cons.mpr ⟨?_, List.forall_mem_singleton.mpr ?_⟩
  · exact Value.hasBodies_of_checkBodies (by decide)
  · exact Value.hasBodies_of_checkBodies (by decide)

theorem nestedTrees_scopes_follow :
    ∃ record, (Session.after ⟨{}, [], .scoping .initial⟩ nestedTrees).recorder = .scoping record ∧
      record.functions = [1, 2, 3, 4] ∧
      ∀ id ∈ record.functions, ∃ function parent,
        (record.scope id).function = some function ∧
        function.IsPlaced (nestedTrees.map Prod.fst) ∧
        (record.scope id).parent = some parent ∧
        record.Encloses parent (enclosing (nestedTrees.map Prod.fst) function.origin) ∧
        record.depth id = 1 + (enclosing (nestedTrees.map Prod.fst) function.origin).length := by
  obtain ⟨record, scoping, -, -, follow⟩ := Session.scopes_follow_functions {} []
    nestedTrees_converted nestedTrees_hasBodies
  refine ⟨record, scoping, ?_, follow⟩
  cases scoping
  rfl

end PhpRendering
