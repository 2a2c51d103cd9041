import PhpRendering.Proofs.Moves

/-!
# Histories of a record

A record can also be used by hand: scopes are opened and closed, and names are defined in
any scope, in between entries of functions. Some of these actions are refused, and an entry
can fail after it opened a scope. Whatever was tried, the scopes of the record are in
order, a name stands for the symbol of the nearest scope that has it, a refused action
changes nothing, and one function is counted for each entry that succeeds.
-/

namespace PhpRendering

def Scope.symbol? (scope : Scope) (name : Value) : Option Symbol :=
  scope.symbols.find? fun symbol => symbol.name.isSameName name

theorem Scope.symbol?_eq_some {scope : Scope} {name : Value} {symbol : Symbol}
    (found : scope.symbol? name = some symbol) :
    symbol ∈ scope.symbols ∧ symbol.name.isSameName name = true :=
  ⟨List.mem_of_find?_eq_some found,
    List.find?_some (p := fun symbol : Symbol => symbol.name.isSameName name) found⟩

namespace ScopeRecord

variable {record : ScopeRecord} {id : ScopeId} {name : Value} {symbol : Symbol}

/-- A scope whose names are different has each symbol under its name. -/
theorem HasDistinctNames.symbol?_eq (distinct : record.HasDistinctNames)
    (held : symbol ∈ (record.scope id).symbols) (same : symbol.name.isSameName name = true) :
    (record.scope id).symbol? name = some symbol := by
  cases found : (record.scope id).symbol? name with
  | none => exact absurd same (List.find?_eq_none.mp found symbol held)
  | some other =>
      obtain ⟨heldToo, sameToo⟩ := Scope.symbol?_eq_some found
      rw [distinct.symbol_unique held same heldToo sameToo]

/-! ## What a name stands for -/

/-- The symbol that a name stands for in a scope: that of the nearest scope, from there
outwards, which defines it. -/
def lookup? (record : ScopeRecord) (id : ScopeId) (name : Value) : Option Symbol :=
  (record.owner? id name).bind fun owner => (record.scope owner).symbol? name

inductive Resolves (record : ScopeRecord) : ScopeId → Value → Symbol → Prop where
  | here {id : ScopeId} {name : Value} {symbol : Symbol}
      (held : symbol ∈ (record.scope id).symbols) (same : symbol.name.isSameName name = true) :
      Resolves record id name symbol
  | around {id parent : ScopeId} {name : Value} {symbol : Symbol}
      (absent : (record.scope id).has name = false)
      (inside : (record.scope id).parent = some parent)
      (rest : Resolves record parent name symbol) : Resolves record id name symbol

theorem lookup?_of_present (stacked : record.IsStacked)
    (present : (record.scope id).has name = true) :
    record.lookup? id name = (record.scope id).symbol? name := by
  unfold lookup? owner?
  rw [stacked.chain_eq, List.find?_cons, present]
  rfl

theorem lookup?_of_absent (stacked : record.IsStacked)
    (absent : (record.scope id).has name = false) :
    record.lookup? id name =
      (record.scope id).parent.bind fun parent => record.lookup? parent name := by
  unfold lookup? owner?
  rw [stacked.chain_eq, List.find?_cons, absent]
  cases (record.scope id).parent with
  | none => rfl
  | some parent => rfl

/-- The symbol that is found is the one that a name stands for. -/
theorem lookup?_eq_some_iff (stacked : record.IsStacked) (distinct : record.HasDistinctNames) :
    record.lookup? id name = some symbol ↔ record.Resolves id name symbol := by
  constructor
  · intro found
    induction id using Nat.strongRecOn with
    | ind id ih =>
        cases present : (record.scope id).has name with
        | true =>
            rw [lookup?_of_present stacked present] at found
            obtain ⟨held, same⟩ := Scope.symbol?_eq_some found
            exact .here held same
        | false =>
            rw [lookup?_of_absent stacked present] at found
            obtain ⟨parent, inside, later⟩ := Option.bind_eq_some_iff.mp found
            exact .around present inside (ih parent (stacked.parent_lt inside) later)
  · intro resolves
    induction resolves with
    | @here id name symbol held same =>
        have present : (record.scope id).has name = true :=
          List.any_eq_true.mpr ⟨symbol, held, same⟩
        rw [lookup?_of_present stacked present]
        exact distinct.symbol?_eq held same
    | around absent inside rest ih =>
        rw [lookup?_of_absent stacked absent, inside]
        exact ih

/-! ## Steps -/

inductive Refusal where
  | scope (error : ScopeError)
  | crash (crash : Crash)
  | noScope

inductive Action where
  | push (name : Value) (function : Option Node)
  | pop
  | define (id : ScopeId) (symbol : Symbol)
  | enter (function : Node)

/-- The record after an action, and whether it was refused. A name is defined in a scope of
the record only, and a list or a record is no name. -/
def perform (record : ScopeRecord) : Action → ScopeRecord × Except Refusal Unit
  | .push name function => (record.push name function, .ok ())
  | .pop =>
      match record.pop with
      | .error error => (record, .error (.scope error))
      | .ok next => (next, .ok ())
  | .define id symbol =>
      if record.scopes.length ≤ id then (record, .error .noScope)
      else
        match symbol.name.asName with
        | .error crash => (record, .error (.crash crash))
        | .ok _ =>
            match record.define id symbol with
            | .error error => (record, .error (.scope error))
            | .ok next => (next, .ok ())
  | .enter function =>
      match record.enter function with
      | (next, .error crash) => (next, .error (.crash crash))
      | (next, .ok ()) => (next, .ok ())

/-- The record after some actions. The next one is tried also when one is refused. -/
def performAll (record : ScopeRecord) : List Action → ScopeRecord
  | [] => record
  | action :: rest => (record.perform action).1.performAll rest

def Action.isEntry : Action → Bool
  | .enter _ => true
  | _ => false

/-- The functions that an action adds to those that were entered: the new scope if it is an
entry that succeeds. -/
def newFunctions (record : ScopeRecord) (action : Action) : List ScopeId :=
  match action.isEntry, (record.perform action).2 with
  | true, .ok () => [record.scopes.length]
  | _, _ => []

/-- How many of some actions are entries that succeed. -/
def successes (record : ScopeRecord) : List Action → Nat
  | [] => 0
  | action :: rest => (record.newFunctions action).length + (record.perform action).1.successes rest

/-- Whatever an action is, it consists of moves. -/
theorem perform_moves (record : ScopeRecord) (action : Action) :
    Moves record (record.perform action).1 := by
  cases action with
  | push name function => exact .single (.opened name function)
  | pop =>
      unfold perform
      cases popped : record.pop with
      | error error => exact .refl
      | ok next => exact .single (.closed popped)
  | define id symbol =>
      unfold perform
      dsimp only
      split
      · exact .refl
      · cases named : symbol.name.asName with
        | error crash => exact .refl
        | ok name =>
            cases defined : record.define id symbol with
            | error error => exact .refl
            | ok next => exact .single (.defined (Value.asName_eq_ok named ▸ named) defined)
  | enter function =>
      have moves := record.enter_moves function
      unfold perform
      dsimp only
      split
      · next next crash failed => rwa [failed] at moves
      · next next fine => rwa [fine] at moves

theorem performAll_moves (record : ScopeRecord) (actions : List Action) :
    Moves record (record.performAll actions) := by
  induction actions generalizing record with
  | nil => exact .refl
  | cons action rest ih => exact (record.perform_moves action).trans (ih _)

/-- An action that is refused changes nothing unless it is an entry. -/
theorem perform_of_refused {action : Action} {refusal : Refusal} (plain : action.isEntry = false)
    (refused : (record.perform action).2 = .error refusal) :
    (record.perform action).1 = record := by
  cases action with
  | push name function => cases refused
  | pop =>
      unfold perform at refused ⊢
      cases popped : record.pop with
      | error error => rfl
      | ok next =>
          rw [popped] at refused
          cases refused
  | define id symbol =>
      unfold perform at refused ⊢
      dsimp only at refused ⊢
      split
      · rfl
      · next known =>
          rw [if_neg known] at refused
          cases named : symbol.name.asName with
          | error crash => rfl
          | ok name =>
              cases defined : record.define id symbol with
              | error error => rfl
              | ok next =>
                  rw [named, defined] at refused
                  cases refused
  | enter function => cases plain

theorem perform_functions (record : ScopeRecord) (action : Action) :
    (record.perform action).1.functions = record.functions ++ record.newFunctions action := by
  cases action with
  | push name function => exact (List.append_nil _).symm
  | pop =>
      refine Eq.trans ?_ (List.append_nil _).symm
      unfold perform
      cases popped : record.pop with
      | error error => rfl
      | ok next => exact (pop_eq_ok popped).2.2.1
  | define id symbol =>
      refine Eq.trans ?_ (List.append_nil _).symm
      unfold perform
      dsimp only
      split
      · rfl
      · cases symbol.name.asName with
        | error crash => rfl
        | ok name =>
            cases defined : record.define id symbol with
            | error error => rfl
            | ok next =>
                obtain ⟨-, rfl⟩ := define_eq_ok defined
                rfl
  | enter function =>
      have counts := record.enter_functions function
      unfold newFunctions perform
      dsimp only [Action.isEntry]
      generalize record.enter function = entry at counts
      obtain ⟨next, outcome⟩ := entry
      cases outcome with
      | error crash => exact counts
      | ok done => exact counts

theorem performAll_functions (record : ScopeRecord) (actions : List Action) :
    record.functions <+: (record.performAll actions).functions ∧
      (record.performAll actions).functions.length =
        record.functions.length + record.successes actions := by
  induction actions generalizing record with
  | nil => exact ⟨List.prefix_rfl, rfl⟩
  | cons action rest ih =>
      obtain ⟨grown, counts⟩ := ih (record.perform action).1
      rw [perform_functions] at grown counts
      refine ⟨(List.prefix_append ..).trans grown, ?_⟩
      rw [performAll, successes, counts, List.length_append, Nat.add_assoc]

/-! ## Order -/

/-- A record whose scopes, symbols and functions are in order. -/
structure IsOrderly (record : ScopeRecord) : Prop where
  /-- the outermost open scope is that of the program, which lies in no other one -/
  bottom : record.openScopes.getLast? = some programId ∧ (record.scope programId).parent = none
  /-- every other open scope lies in the next one -/
  linked : record.openScopes.IsChain fun inner outer => (record.scope inner).parent = some outer
  depth : record.depth record.current = record.openScopes.length - 1
  /-- only the scope of the program cannot be closed -/
  pop : record.pop = .error .onlyProgramOpen ↔ record.current = programId
  /-- a scope refuses the names that it has; a symbol of another name is added to it -/
  define : ∀ id, id < record.scopes.length → ∀ symbol,
    (record.define id symbol = .error (.alreadyDefined symbol.name) ↔
      (record.scope id).has symbol.name = true) ∧
    ((record.scope id).has symbol.name = false →
      ∃ next, record.define id symbol = .ok next ∧ ∀ other, (next.scope other).symbols =
        (record.scope other).symbols ++ if id = other then [symbol] else [])
  /-- each scope has a name once, and under it the symbol of that name -/
  symbols : ∀ id, (record.scope id).symbols.Pairwise Symbol.IsApart ∧
    ∀ symbol ∈ (record.scope id).symbols, (record.scope id).symbol? symbol.name = some symbol
  lookup : ∀ id name symbol, record.lookup? id name = some symbol ↔ record.Resolves id name symbol

theorem IsStacked.pop_iff (stacked : record.IsStacked) :
    record.pop = .error .onlyProgramOpen ↔ record.current = programId := by
  constructor
  · intro refused
    have bottom := stacked.bottom
    unfold ScopeRecord.pop at refused
    unfold openScopes at bottom
    split at refused
    · next alone =>
        rw [alone] at bottom
        exact Option.some.inj bottom
    · cases refused
  · intro here
    have chain := stacked.chain_current
    rw [here, stacked.chain_eq, stacked.parent_program] at chain
    unfold ScopeRecord.pop
    rw [← (List.cons.inj chain).2]
    rfl

/-- A name is refused exactly in the scopes that have it, else its symbol is added. -/
theorem define_spec (known : id < record.scopes.length) (symbol : Symbol) :
    (record.define id symbol = .error (.alreadyDefined symbol.name) ↔
      (record.scope id).has symbol.name = true) ∧
    ((record.scope id).has symbol.name = false →
      ∃ next, record.define id symbol = .ok next ∧ ∀ other, (next.scope other).symbols =
        (record.scope other).symbols ++ if id = other then [symbol] else []) := by
  unfold define
  cases has : (record.scope id).has symbol.name with
  | true => exact ⟨iff_of_true rfl rfl, nofun⟩
  | false =>
      rw [if_neg Bool.false_ne_true]
      exact ⟨iff_of_false nofun nofun, fun _ => ⟨_, rfl, scope_addSymbol known symbol⟩⟩

theorem isOrderly_of_stacked (stacked : record.IsStacked) (distinct : record.HasDistinctNames) :
    record.IsOrderly := by
  refine ⟨⟨stacked.bottom, stacked.parent_program⟩, ?_, stacked.depth_current, stacked.pop_iff,
    fun id known => define_spec known, ?_, fun id name symbol => lookup?_eq_some_iff stacked distinct⟩
  · exact stacked.linked.imp fun inner outer ⟨owner, found⟩ => (scope_of_frame found).1
  · intro id
    obtain ⟨apart, proper⟩ := distinct.symbols id
    refine ⟨apart, fun symbol held => ?_⟩
    exact distinct.symbol?_eq held (Value.isSameName_self (proper symbol held))

/-- After any actions, refused or not, a record is in order and has counted one function for
each entry that succeeded. Whatever is tried next, nothing changes if it is refused and no
entry, and the functions stay what they are but for one more after an entry that
succeeds. -/
theorem history_isOrderly (actions : List Action) :
    (initial.performAll actions).IsOrderly ∧
      (initial.performAll actions).functions.length = initial.successes actions ∧
      ∀ action,
        (action.isEntry = false → ∀ refusal,
          ((initial.performAll actions).perform action).2 = .error refusal →
          ((initial.performAll actions).perform action).1 = initial.performAll actions) ∧
        ((initial.performAll actions).perform action).1.functions =
          (initial.performAll actions).functions ++
            (initial.performAll actions).newFunctions action := by
  have moves := initial.performAll_moves actions
  refine ⟨isOrderly_of_stacked (initial_isStacked.moves moves)
    (initial_hasDistinctNames.moves moves), ?_, fun action => ⟨?_, ?_⟩⟩
  · rw [(initial.performAll_functions actions).2]
    exact Nat.zero_add _
  · exact fun plain refusal refused => perform_of_refused plain refused
  · exact perform_functions _ action

def halfBound : Node :=
  ⟨⟨0, []⟩, "FunctionExpression",
    [("params", .list [.node ⟨⟨0, [.item 0]⟩, "Identifier", [("name", .text "a")], none⟩, .null])],
    none⟩

/-- Actions of which the entry fails after its scope was opened, and the last one because
only the scope of the program is left. -/
def trialActions : List Action :=
  [.enter { halfBound with fields := [] }, .enter halfBound, .push (.text "block") none,
    .define 2 { name := .text "b" }, .pop, .pop, .pop, .pop]

theorem trialActions_isOrderly :
    (initial.performAll trialActions).IsOrderly ∧
      (initial.performAll trialActions).functions = [1] ∧
      ((initial.performAll trialActions).perform (.define 2 { name := .text "a" })).1 =
        initial.performAll trialActions := by
  obtain ⟨orderly, -, next⟩ := history_isOrderly trialActions
  refine ⟨orderly, rfl, ?_⟩
  have refused : ((initial.performAll trialActions).perform (.define 2 { name := .text "a" })).2 =
      .error (.scope (.alreadyDefined (.text "a"))) := rfl
  exact (next (.define 2 { name := .text "a" })).1 rfl _ refused

end ScopeRecord

end PhpRendering
