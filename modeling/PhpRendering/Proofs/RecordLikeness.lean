import PhpRendering.Proofs.Counterpart
import PhpRendering.Proofs.Recording
import PhpRendering.Session

/-!
# Records that are alike

A recorder reads the name and the parameters of a function and asks whether the body of
one function holds that of another. When two runs enter functions that agree in all that,
their records stay alike: they have the same scopes, with the same names and symbols,
nested in the same way, and functions that correspond.
-/

namespace PhpRendering

/-! ## Values as names -/

/-- A node without what it holds: its place and its kind. -/
def Node.bare (node : Node) : Node :=
  ⟨node.origin, node.kind, [], none⟩

def Value.bare : Value → Value
  | .node named => .node named.bare
  | value => value

/-- Names are compared without a look at what they hold. -/
theorem Value.isSameName_bare (first second : Value) :
    first.bare.isSameName second.bare = first.isSameName second := by
  cases first <;> cases second <;> rfl

def Symbol.bare (symbol : Symbol) : Symbol :=
  { symbol with name := symbol.name.bare }

/-! ## Records -/

variable {E : Node → Node → Prop}

/-- Two scopes with the same names and symbols whose functions correspond. -/
structure Scope.Like (E : Node → Node → Prop) (first second : Scope) : Prop where
  parent : first.parent = second.parent
  name : first.name.bare = second.name.bare
  function : Option.Rel E first.function second.function
  symbols : first.symbols.map Symbol.bare = second.symbols.map Symbol.bare

theorem Scope.Like.has_eq {first second : Scope} (like : first.Like E second) {name other : Value}
    (same : name.bare = other.bare) : first.has name = second.has other := by
  have bare (scope : Scope) (name : Value) :
      scope.has name = (scope.symbols.map Symbol.bare).any fun symbol =>
        symbol.name.isSameName name.bare := by
    simp only [Scope.has, List.any_map, Function.comp_def, Symbol.bare, Value.isSameName_bare]
  rw [bare, bare, like.symbols, same]

/-- Scopes hold the same when nothing owns them, so only their owners are to be compared. -/
theorem Scope.Like.holdsBodyOf_eq {first second : Scope} (like : first.Like E second)
    {inner innerToo : Node}
    (owned : ∀ function other, E function other → first.function = some function →
      second.function = some other → first.holdsBodyOf inner = second.holdsBodyOf innerToo) :
    first.holdsBodyOf inner = second.holdsBodyOf innerToo := by
  have owners := like.function
  generalize owner : first.function = known at owners
  generalize ownerToo : second.function = knownToo at owners
  cases owners with
  | none =>
      unfold Scope.holdsBodyOf Scope.holds
      rw [owner, ownerToo]
  | some related => exact owned _ _ related owner ownerToo

structure ScopeRecord.Like (E : Node → Node → Prop) (first second : ScopeRecord) : Prop where
  scopes : List.Forall₂ (Scope.Like E) first.scopes second.scopes
  current : first.current = second.current
  outer : first.outer = second.outer
  functions : first.functions = second.functions

/-- Two accesses to a name with the same bare result have one name each, no name, or the
same crash. -/
theorem bareName_cases {first second : Except Crash (Option Value)}
    (same : first.map (Option.map Value.bare) = second.map (Option.map Value.bare)) :
    (∃ crash, first = .error crash ∧ second = .error crash) ∨
      (first = .ok none ∧ second = .ok none) ∨
      ∃ name other, first = .ok (some name) ∧ second = .ok (some other) ∧
        name.bare = other.bare := by
  cases first with
  | error crash =>
      cases second with
      | error other =>
          cases same
          exact .inl ⟨crash, rfl, rfl⟩
      | ok other => cases same
  | ok name =>
      cases second with
      | error other => cases same
      | ok other =>
          have equal : name.map Value.bare = other.map Value.bare := Except.ok.inj same
          cases name with
          | none =>
              cases other with
              | none => exact .inr (.inl ⟨rfl, rfl⟩)
              | some other => cases equal
          | some name =>
              cases other with
              | none => cases equal
              | some other => exact .inr (.inr ⟨name, other, rfl, rfl, Option.some.inj equal⟩)

def boundSymbols (params : List Value) : List (Except Crash (Option Value)) :=
  params.map fun param => param.boundSymbol?.map (Option.map Value.bare)

/-- What a recorder is told about a function that is entered: its name, and the names of
its parameters in order. -/
structure Notice where
  name : Except Crash (Option Value)
  params : Except Crash (List (Except Crash (Option Value)))

def Node.notice (function : Node) : Notice :=
  ⟨function.functionName?.map (Option.map Value.bare),
    (function.optionalItems "params").map boundSymbols⟩

/-- Two functions that a recorder does not tell apart. -/
structure Node.EntersLike (E : Node → Node → Prop) (first second : Node) : Prop where
  related : E first second
  name : first.functionName?.map (Option.map Value.bare) =
    second.functionName?.map (Option.map Value.bare)
  params : (first.optionalItems "params").map boundSymbols =
    (second.optionalItems "params").map boundSymbols
  holds : ∀ scope other, Scope.Like E scope other →
    scope.holdsBodyOf first = other.holdsBodyOf second

namespace ScopeRecord.Like

variable {first second : ScopeRecord}

theorem scope (like : first.Like E second) (id : ScopeId) :
    (first.scope id).Like E (second.scope id) := by
  unfold ScopeRecord.scope
  obtain ⟨scopes, -, -, -⟩ := like
  generalize first.scopes = known at scopes
  generalize second.scopes = others at scopes
  induction scopes generalizing id with
  | nil => exact ⟨rfl, rfl, .none, rfl⟩
  | cons head _ ih =>
      cases id with
      | zero => exact head
      | succ id => exact ih id

theorem currentScope (like : first.Like E second) :
    first.currentScope.Like E second.currentScope := by
  unfold ScopeRecord.currentScope
  rw [← like.current]
  exact like.scope _

theorem push (like : first.Like E second) {name other : Value} (same : name.bare = other.bare)
    {function functionToo : Node} (related : E function functionToo) :
    (first.push name (some function)).Like E (second.push other (some functionToo)) where
  scopes := by
    refine List.rel_append like.scopes (.cons ⟨?_, same, .some related, rfl⟩ .nil)
    rw [like.current]
  current := like.scopes.length_eq
  outer := by
    simp only [ScopeRecord.push, like.current, like.outer]
  functions := like.functions

theorem defineHere (like : first.Like E second) {symbol other : Symbol}
    (same : symbol.bare = other.bare) :
    (first.defineHere symbol).Like E (second.defineHere other) := by
  have name : symbol.name.bare = other.name.bare := congrArg Symbol.name same
  unfold ScopeRecord.defineHere
  rw [like.currentScope.has_eq name]
  split
  · exact like
  · refine ⟨?_, like.current, like.outer, like.functions⟩
    simp only [ScopeRecord.addSymbol, like.current]
    have scopes := like.scopes
    generalize first.scopes = known at scopes
    generalize second.scopes = others at scopes
    generalize second.current = id
    induction scopes generalizing id with
    | nil =>
        simp only [List.modify_nil]
        exact .nil
    | cons head rest ih =>
        cases id with
        | zero =>
            refine .cons ⟨head.parent, head.name, head.function, ?_⟩ rest
            simp only [List.map_append, head.symbols, List.map_cons, same]
        | succ id => exact .cons head (ih id)

theorem nameFunction (like : first.Like E second) {name other : Option Value}
    (same : name.map Value.bare = other.map Value.bare) :
    (first.nameFunction name).Like E (second.nameFunction other) := by
  have global : first.isProgramCurrent = second.isProgramCurrent := by
    unfold ScopeRecord.isProgramCurrent
    rw [like.currentScope.parent]
  cases name with
  | none =>
      cases other with
      | none => exact like
      | some other => cases same
  | some name =>
      cases other with
      | none => cases same
      | some other =>
          refine like.defineHere ?_
          simp only [Symbol.bare, global, Option.some.inj same]

/-- Parameters that bring the same names. -/
theorem bindParameters (like : first.Like E second) (index : Nat) {params others : List Value}
    (same : boundSymbols params = boundSymbols others) :
    (first.bindParameters index params).1.Like E (second.bindParameters index others).1 ∧
      (first.bindParameters index params).2 = (second.bindParameters index others).2 := by
  induction params generalizing first second index others with
  | nil =>
      cases others with
      | nil => exact ⟨like, rfl⟩
      | cons other rest => cases same
  | cons param rest ih =>
      cases others with
      | nil => cases same
      | cons other later =>
          obtain ⟨head, tail⟩ := List.cons.inj same
          rcases bareName_cases head with ⟨crash, one, two⟩ | ⟨one, two⟩ | ⟨name, nameToo, one, two, bare⟩
          all_goals simp only [ScopeRecord.bindParameters_cons, one, two]
          · exact ⟨like, trivial⟩
          · exact ih like (index + 1) tail
          · refine ih (like.defineHere ?_) (index + 1) tail
            simp only [Symbol.bare, bare]

theorem openFunction (like : first.Like E second) {function other : Node}
    (enters : function.EntersLike E other) {name nameToo : Option Value}
    (same : name.map Value.bare = nameToo.map Value.bare) :
    (first.openFunction function name).1.Like E (second.openFunction other nameToo).1 ∧
      (first.openFunction function name).2 = (second.openFunction other nameToo).2 := by
  have bare : (name.getD (.text "")).bare = (nameToo.getD (.text "")).bare := by
    cases name <;> cases nameToo <;> first | rfl | cases same | exact Option.some.inj same
  have opened := like.push bare enters.related
  have params := enters.params
  unfold ScopeRecord.openFunction
  cases listed : function.optionalItems "params" with
  | error crash =>
      cases listedToo : other.optionalItems "params" with
      | error crashToo =>
          rw [listed, listedToo] at params
          cases params
          exact ⟨opened, rfl⟩
      | ok items =>
          rw [listed, listedToo] at params
          cases params
  | ok items =>
      cases listedToo : other.optionalItems "params" with
      | error crashToo =>
          rw [listed, listedToo] at params
          cases params
      | ok others =>
          rw [listed, listedToo] at params
          obtain ⟨bound, outcome⟩ := opened.bindParameters 0 (Except.ok.inj params)
          dsimp only
          generalize (first.push _ (some function)).bindParameters 0 items = result at bound outcome
          generalize (second.push _ (some other)).bindParameters 0 others = resultToo
            at bound outcome
          obtain ⟨record, done⟩ := result
          obtain ⟨recordToo, doneToo⟩ := resultToo
          cases outcome
          cases done with
          | error crash => exact ⟨bound, rfl⟩
          | ok done =>
              refine ⟨⟨bound.scopes, bound.current, bound.outer, ?_⟩, rfl⟩
              rw [opened.current]
              exact congrArg (· ++ _) bound.functions

theorem leave (like : first.Like E second) {function other : Node}
    (enters : function.EntersLike E other) :
    (first.leave function first.outer).1.Like E (second.leave other second.outer).1 ∧
      (first.leave function first.outer).2 = (second.leave other second.outer).2 := by
  obtain ⟨scopes, current, outer, functions⟩ := first
  obtain ⟨scopesToo, currentToo, outerToo, functionsToo⟩ := second
  obtain ⟨alike, rfl, rfl, rfl⟩ := like
  induction outer generalizing current with
  | nil => exact ⟨⟨alike, rfl, rfl, rfl⟩, rfl⟩
  | cons next rest ih =>
      have here : ScopeRecord.Like E ⟨scopes, current, next :: rest, functions⟩
          ⟨scopesToo, current, next :: rest, functions⟩ := ⟨alike, rfl, rfl, rfl⟩
      simp only [ScopeRecord.leave]
      rw [enters.holds _ _ here.currentScope]
      cases (ScopeRecord.currentScope ⟨scopesToo, current, next :: rest, functions⟩).holdsBodyOf
          other with
      | error crash => exact ⟨here, rfl⟩
      | ok inside =>
          cases inside with
          | true => exact ⟨here, rfl⟩
          | false => exact ih next alike

/-- The entries of functions that a recorder does not tell apart. -/
theorem enter (like : first.Like E second) {function other : Node}
    (enters : function.EntersLike E other) :
    (first.enter function).1.Like E (second.enter other).1 ∧
      (first.enter function).2 = (second.enter other).2 := by
  obtain ⟨left, outcome⟩ := like.leave enters
  unfold ScopeRecord.enter
  generalize first.leave function first.outer = result at left outcome
  generalize second.leave other second.outer = resultToo at left outcome
  obtain ⟨record, done⟩ := result
  obtain ⟨recordToo, doneToo⟩ := resultToo
  cases outcome
  cases done with
  | error crash => exact ⟨left, rfl⟩
  | ok done =>
      dsimp only
      rcases bareName_cases enters.name with ⟨crash, one, two⟩ | ⟨one, two⟩ | ⟨name, nameToo, one, two, bare⟩
      · rw [one, two]
        exact ⟨left, rfl⟩
      · rw [one, two]
        exact (left.nameFunction rfl).openFunction enters rfl
      · rw [one, two]
        have same : (some name).map Value.bare = (some nameToo).map Value.bare := congrArg some bare
        exact (left.nameFunction same).openFunction enters same

end ScopeRecord.Like

/-! ## Sessions -/

/-- Two recorders of one sort that agree in what they have recorded. -/
inductive Recorder.Like (E : Node → Node → Prop) : Recorder → Recorder → Prop where
  | ignoring : Like E .ignoring .ignoring
  | listing {entered others : List Node} (all : List.Forall₂ E entered others) :
      Like E (.listing entered) (.listing others)
  | scoping {record other : ScopeRecord} (like : record.Like E other) :
      Like E (.scoping record) (.scoping other)

theorem Recorder.Like.enter {recorder recorderToo : Recorder} (like : recorder.Like E recorderToo)
    {function other : Node} (enters : function.EntersLike E other) :
    (recorder.enter function).1.Like E (recorderToo.enter other).1 ∧
      (recorder.enter function).2 = (recorderToo.enter other).2 := by
  cases like with
  | ignoring => exact ⟨.ignoring, rfl⟩
  | listing all => exact ⟨.listing (List.rel_append all (.cons enters.related .nil)), rfl⟩
  | scoping like =>
      obtain ⟨after, outcome⟩ := like.enter enters
      exact ⟨.scoping after, outcome⟩

structure Session.Like (E : Node → Node → Prop) (first second : Session) : Prop where
  options : first.options = second.options
  log : first.log = second.log
  recorder : first.recorder.Like E second.recorder

namespace Session.Like

variable {first second : Session}

theorem observeAll (like : first.Like E second) {events others : List Event}
    (all : List.Forall₂ (Event.Like (Node.EntersLike E)) events others) :
    (first.observeAll events).1.Like E (second.observeAll others).1 ∧
      (first.observeAll events).2 = (second.observeAll others).2 := by
  induction all generalizing first second with
  | nil => exact ⟨like, rfl⟩
  | cons head _ ih =>
      cases head with
      | reported diagnostic =>
          refine ih ⟨like.options, ?_, like.recorder⟩
          rw [like.log]
      | @entered function other enters =>
          obtain ⟨after, outcome⟩ := like.recorder.enter enters
          simp only [Session.observeAll, Session.observe]
          generalize first.recorder.enter function = result at after outcome
          generalize second.recorder.enter other = resultToo at after outcome
          obtain ⟨recorder, done⟩ := result
          obtain ⟨recorderToo, doneToo⟩ := resultToo
          cases outcome
          cases done with
          | error crash => exact ⟨⟨like.options, like.log, after⟩, rfl⟩
          | ok done => exact ih ⟨like.options, like.log, after⟩

/-- Runs over emissions that are alike. -/
theorem run (like : first.Like E second) {α : Type} {emission other : Emission Crash α}
    (same : emission.Like (Node.EntersLike E) other) :
    (first.run emission).1.Like E (second.run other).1 ∧
      (first.run emission).2 = (second.run other).2 := by
  obtain ⟨after, outcome⟩ := like.observeAll same.events
  unfold Session.run
  generalize first.observeAll emission.events = result at after outcome
  generalize second.observeAll other.events = resultToo at after outcome
  obtain ⟨session, done⟩ := result
  obtain ⟨sessionToo, doneToo⟩ := resultToo
  cases outcome
  cases done with
  | error crash => exact ⟨after, rfl⟩
  | ok done => exact ⟨after, same.outcome⟩

/-- Two programs that render alike give the same file or fail in the same way. -/
theorem generate (like : first.Like E second) {root other : Node} (kind : root.kind = other.kind)
    (found : String)
    (same : (PhpRendering.render first.options (.node root) {}).Like (Node.EntersLike E)
      (PhpRendering.render first.options (.node other) {})) :
    (first.generate (.node root) found).1.Like E (second.generate (.node other) found).1 ∧
      (first.generate (.node root) found).2 = (second.generate (.node other) found).2 := by
  unfold Session.generate
  simp only [Session.programOf, ← kind]
  by_cases program : root.kind = "Program"
  · obtain ⟨after, outcome⟩ := like.run same
    simp only [if_pos program, Session.render, ← like.options]
    generalize first.run _ = result at after outcome
    generalize second.run _ = resultToo at after outcome
    obtain ⟨session, done⟩ := result
    obtain ⟨sessionToo, doneToo⟩ := resultToo
    cases outcome
    cases done with
    | error crash => exact ⟨after, rfl⟩
    | ok text => exact ⟨after, rfl⟩
  · simp only [if_neg program]
    exact ⟨like, trivial⟩

end Session.Like

/-! ## Bare records -/

def Scope.bare (scope : Scope) : Scope :=
  { scope with
    name := scope.name.bare
    function := scope.function.map Node.bare
    symbols := scope.symbols.map Symbol.bare }

def Recorder.bare : Recorder → Recorder
  | .ignoring => .ignoring
  | .listing entered => .listing (entered.map Node.bare)
  | .scoping record => .scoping { record with scopes := record.scopes.map Scope.bare }

theorem ScopeRecord.Like.refl (reflexive : ∀ function, E function function)
    (record : ScopeRecord) : record.Like E record := by
  refine ⟨List.forall₂_same.mpr fun scope _ => ⟨rfl, rfl, ?_, rfl⟩, rfl, rfl, rfl⟩
  cases scope.function with
  | none => exact .none
  | some function => exact .some (reflexive function)

theorem Recorder.Like.refl (reflexive : ∀ function, E function function) (recorder : Recorder) :
    recorder.Like E recorder := by
  cases recorder with
  | ignoring => exact .ignoring
  | listing entered => exact .listing (List.forall₂_same.mpr fun function _ => reflexive function)
  | scoping record => exact .scoping (.refl reflexive record)

theorem Session.Like.refl (reflexive : ∀ function, E function function) (session : Session) :
    session.Like E session :=
  ⟨rfl, rfl, .refl reflexive session.recorder⟩

theorem map_eq_of_forall₂ {α β : Type} {A : α → α → Prop} {items others : List α} {wrap : α → β}
    (all : List.Forall₂ A items others) (same : ∀ item other, A item other → wrap item = wrap other) :
    items.map wrap = others.map wrap := by
  induction all with
  | nil => rfl
  | cons first _ ih => exact congrArg₂ List.cons (same _ _ first) ih

/-- Records that are alike are the same up to what corresponding functions hold. -/
theorem Recorder.Like.bare_eq {recorder other : Recorder} (like : recorder.Like E other)
    (bare : ∀ function other, E function other → function.bare = other.bare) :
    recorder.bare = other.bare := by
  cases like with
  | ignoring => rfl
  | listing all => exact congrArg Recorder.listing (map_eq_of_forall₂ all bare)
  | @scoping record recordToo like =>
      have scopes : record.scopes.map Scope.bare = recordToo.scopes.map Scope.bare := by
        refine map_eq_of_forall₂ like.scopes fun scope other same => ?_
        have function : scope.function.map Node.bare = other.function.map Node.bare := by
          obtain ⟨-, -, owners, -⟩ := same
          generalize scope.function = function at owners
          generalize other.function = functionToo at owners
          cases owners with
          | none => rfl
          | some related => exact congrArg some (bare _ _ related)
        simp only [Scope.bare, same.parent, same.name, function, same.symbols]
      simp only [Recorder.bare, scopes, like.current, like.outer, like.functions]

/-! ## Entries of counterparts -/

theorem Emission.Like.mono {F : Node → Node → Prop} {ε α : Type} {first second : Emission ε α}
    (like : first.Like E second) (weaker : ∀ function other, E function other → F function other) :
    first.Like F second := by
  refine ⟨like.events.imp ?_, like.outcome⟩
  rintro _ _ (diagnostic | related)
  · exact .reported diagnostic
  · exact .entered (weaker _ _ related)

/-- Corresponding parameters bind names that correspond, through any nesting of patterns. -/
theorem Resembles.boundName {N : Node → Node → Prop} (like : Resembles N) {node other : Node}
    (related : N node other) : node.boundName.Alike N other.boundName := by
  induction height : node.height using Nat.strongRecOn generalizing node other with
  | ind bound ih =>
      subst height
      have kind := like.kind related
      rw [node.boundName_eq, other.boundName_eq]
      simp only [kind.eq_iff (by decide : Construct.ofKind? "Identifier" ≠ _),
        kind.eq_iff (by decide : Construct.ofKind? "AssignmentPattern" ≠ _)]
      split
      · next identifier =>
          exact like.identifier related ((kind.eq_iff (by decide)).mpr identifier)
      · split
        · have left := like.fields related "left" (by decide)
          have lower := node.height_field_lt "left"
          generalize node.field "left" = held at left lower
          generalize other.field "left" = heldToo at left
          cases left with
          | node inner => exact ih _ lower inner rfl
          | _ => exact .scalar _
        · exact .scalar _

end PhpRendering
