import PhpRendering.Proofs.Completeness
import PhpRendering.Proofs.Moves
import PhpRendering.Proofs.RecordLikeness

/-!
# The symbols of a scope

A scope gets symbols when its function is entered and when functions inside it are, which
may be much later. After a run it has, in this order, the names of its parameters and the
names of the functions that were entered directly inside it, each where it comes first.
-/

namespace PhpRendering

/-! ## First symbols -/

def firstSymbols : List Symbol → List Symbol
  | [] => []
  | symbol :: rest =>
      symbol :: (firstSymbols rest).filter fun other => !symbol.name.isSameName other.name

/-- A name is among the first symbols when it is among all. -/
theorem any_firstSymbols (symbols : List Symbol) (name : Value) :
    ((firstSymbols symbols).any fun symbol => symbol.name.isSameName name) =
      symbols.any fun symbol => symbol.name.isSameName name := by
  induction symbols with
  | nil => rfl
  | cons symbol rest ih =>
      rw [firstSymbols, List.any_cons, List.any_cons, ← ih]
      cases same : symbol.name.isSameName name with
      | true => rfl
      | false =>
          -- A symbol with the name is apart from the head, so the filter keeps it.
          rw [Bool.false_or, Bool.false_or, List.any_filter]
          refine congrArg _ (funext fun other => ?_)
          cases like : other.name.isSameName name with
          | false => exact Bool.and_false _
          | true =>
              rw [Bool.and_true, Bool.not_eq_true']
              refine Bool.eq_false_iff.mpr fun head => Bool.eq_false_iff.mp same ?_
              exact Value.isSameName_trans head like

/-- The first symbols of two lists are those of the first one, and those of the second one
whose names are not in the first one. -/
theorem firstSymbols_append (front back : List Symbol) :
    firstSymbols (front ++ back) =
      firstSymbols front ++ (firstSymbols back).filter fun symbol =>
        !front.any fun other => other.name.isSameName symbol.name := by
  induction front with
  | nil => exact (List.filter_eq_self.mpr fun _ _ => rfl).symm
  | cons symbol rest ih =>
      rw [List.cons_append, firstSymbols, ih, List.filter_append, List.filter_filter, firstSymbols,
        List.cons_append]
      simp only [List.any_cons, Bool.not_or]

/-- A symbol behind others is a first one unless its name is among them. -/
theorem firstSymbols_append_singleton (symbols : List Symbol) (last : Symbol) :
    firstSymbols (symbols ++ [last]) =
      if (firstSymbols symbols).any fun symbol => symbol.name.isSameName last.name then
        firstSymbols symbols
      else firstSymbols symbols ++ [last] := by
  have single : firstSymbols [last] = [last] := rfl
  rw [firstSymbols_append, any_firstSymbols, single, List.filter_singleton]
  cases symbols.any fun symbol => symbol.name.isSameName last.name with
  | true => exact List.append_nil _
  | false => rfl

/-! ## Symbols that are brought -/

def parameterSymbols (index : Nat) (params : List Value) : List Symbol :=
  (params.zipIdx index).filterMap fun entry =>
    match entry.1.boundSymbol? with
    | .ok (some name) => some { name := name, parameter := entry.2 }
    | _ => none

def Node.parameterSymbols (function : Node) : List Symbol :=
  match function.optionalItems "params" with
  | .ok params => PhpRendering.parameterSymbols 0 params
  | .error _ => []

def Node.ownName? (function : Node) : Option Value :=
  match function.functionName? with
  | .ok name => name
  | .error _ => none

namespace ScopeRecord

variable {record : ScopeRecord} {id : ScopeId}

/-- The symbol that the function of one scope brings to another one: its name, if it has
one, when its scope lies directly inside. -/
def nameSymbol? (record : ScopeRecord) (id inner : ScopeId) : Option Symbol :=
  if (record.scope inner).parent = some id then
    ((record.scope inner).function.bind Node.ownName?).map fun name =>
      { name := name, isGlobal := id == programId, isFunction := true }
  else none

/-- The symbols that are brought to a scope, first by the parameters of its function, then
by the functions that are entered directly inside it, in the order of their entries. -/
def brought (record : ScopeRecord) (id : ScopeId) : List Symbol :=
  ((record.scope id).function.map Node.parameterSymbols).getD [] ++
    record.functions.filterMap (record.nameSymbol? id)

/-! ## Definitions -/

theorem scope_defineHere (known : record.current < record.scopes.length) (symbol : Symbol)
    {other : ScopeId} {symbols : List Symbol}
    (before : (record.scope other).symbols = firstSymbols symbols) :
    ((record.defineHere symbol).scope other).symbols =
      firstSymbols (symbols ++ if record.current = other then [symbol] else []) := by
  by_cases here : record.current = other
  · subst here
    have has : record.currentScope.has symbol.name =
        (firstSymbols symbols).any fun first => first.name.isSameName symbol.name := by
      unfold Scope.has currentScope
      rw [before]
    rw [if_pos rfl, firstSymbols_append_singleton]
    unfold defineHere
    rw [has]
    split
    · exact before
    · rw [scope_addSymbol known, if_pos rfl, before]
  · rw [if_neg here, List.append_nil]
    unfold defineHere
    split
    · exact before
    · rw [scope_addSymbol known, if_neg here, List.append_nil, before]

theorem scope_bindParameters (known : record.current < record.scopes.length) (index : Nat)
    {params : List Value} (fine : (record.bindParameters index params).2 = .ok ())
    {other : ScopeId} {symbols : List Symbol}
    (before : (record.scope other).symbols = firstSymbols symbols) :
    ((record.bindParameters index params).1.scope other).symbols =
      firstSymbols (symbols ++
        if record.current = other then parameterSymbols index params else []) := by
  induction params generalizing record index symbols with
  | nil =>
      have none : (if record.current = other then parameterSymbols index [] else []) = [] :=
        ite_self _
      rw [none, List.append_nil]
      exact before
  | cons param rest ih =>
      unfold parameterSymbols
      rw [List.zipIdx_cons, List.filterMap_cons]
      rw [bindParameters_cons] at fine ⊢
      cases bound : param.boundSymbol? with
      | error crash =>
          rw [bound] at fine
          cases fine
      | ok name =>
          rw [bound] at fine
          cases name with
          | none => exact ih known (index + 1) fine before
          | some name =>
              have same := defineHere_sameNesting record { name := name, parameter := index }
              have defined := scope_defineHere known { name := name, parameter := index } before
              rw [← same.current, ← same.length] at known
              rw [ih known (index + 1) fine defined, same.current]
              split <;> simp [parameterSymbols]

/-- An entry that succeeds, step by step. -/
theorem enter_eq_ok {function : Node} (fine : (record.enter function).2 = .ok ()) :
    ∃ left name params, (record.leave function record.outer).1 = left ∧
      function.functionName? = .ok name ∧ function.optionalItems "params" = .ok params ∧
      (((left.nameFunction name).push (name.getD (.text "")) (some function)).bindParameters 0
        params).2 = .ok () ∧
      (record.enter function).1.scopes =
        (((left.nameFunction name).push (name.getD (.text "")) (some function)).bindParameters 0
          params).1.scopes := by
  unfold enter at fine ⊢
  generalize record.leave function record.outer = leaving at fine ⊢
  obtain ⟨left, outcome⟩ := leaving
  cases outcome with
  | error crash => cases fine
  | ok done =>
      dsimp only at fine ⊢
      cases named : function.functionName? with
      | error crash =>
          rw [named] at fine
          cases fine
      | ok name =>
          rw [named] at fine
          unfold openFunction at fine ⊢
          cases listed : function.optionalItems "params" with
          | error crash =>
              rw [listed] at fine
              cases fine
          | ok params =>
              rw [listed] at fine
              dsimp only at fine ⊢
              refine ⟨left, name, params, rfl, rfl, rfl, ?_⟩
              generalize ((left.nameFunction name).push (name.getD (.text ""))
                (some function)).bindParameters 0 params = binding at fine ⊢
              obtain ⟨bound, outcome⟩ := binding
              cases outcome with
              | error crash => cases fine
              | ok done => exact ⟨rfl, rfl⟩

def nameSymbols (id : ScopeId) : Option Value → List Symbol
  | some name => [{ name := name, isGlobal := id == programId, isFunction := true }]
  | none => []

theorem IsStacked.scope_nameFunction (stacked : record.IsStacked) (name : Option Value)
    {other : ScopeId} {symbols : List Symbol}
    (before : (record.scope other).symbols = firstSymbols symbols) :
    ((record.nameFunction name).scope other).symbols =
      firstSymbols (symbols ++ if record.current = other then nameSymbols other name else []) := by
  cases name with
  | none =>
      have nothing : (if record.current = other then nameSymbols other none else []) = [] :=
        ite_self _
      rw [nothing, List.append_nil]
      exact before
  | some name =>
      have global : record.isProgramCurrent = (record.current == programId) := by
        unfold isProgramCurrent currentScope
        by_cases here : record.current = programId
        · rw [here, stacked.parent_program]
          rfl
        · obtain ⟨parent, inside⟩ := stacked.parent_of_ne stacked.current_lt here
          rw [inside, beq_eq_false_iff_ne.mpr here]
          rfl
      unfold nameFunction
      rw [scope_defineHere stacked.current_lt _ before, global]
      split
      · next here =>
          rw [here]
          rfl
      · rfl

/-! ## Names of scopes -/

def names (record : ScopeRecord) : List Value :=
  record.scopes.map Scope.name

theorem names_defineHere (record : ScopeRecord) (symbol : Symbol) :
    (record.defineHere symbol).names = record.names := by
  unfold defineHere
  split
  · rfl
  · refine List.ext_getElem? fun place => ?_
    simp only [names, addSymbol, List.getElem?_map, List.getElem?_modify]
    split
    · cases record.scopes[place]? <;> rfl
    · cases record.scopes[place]? <;> rfl

theorem names_nameFunction (record : ScopeRecord) (name : Option Value) :
    (record.nameFunction name).names = record.names := by
  cases name with
  | none => rfl
  | some name => exact record.names_defineHere _

theorem names_bindParameters (record : ScopeRecord) (index : Nat) (params : List Value) :
    (record.bindParameters index params).1.names = record.names :=
  bindParameters_keeps (P := fun after => after.names = record.names)
    (fun before _ _ _ same => (before.names_defineHere _).trans same) rfl index

/-! ## Entries that succeed -/

/-- What an entry that succeeds makes of the scopes: there is one more, inside the one that
is current when the scopes that were left are closed, with the name of the function. The
function has brought its name there and its parameters to the new scope. -/
structure Enters (record after : ScopeRecord) (function : Node) (current : ScopeId)
    (name : Option Value) : Prop where
  named : function.functionName? = .ok name
  inside : current < record.scopes.length
  frames : after.frames = record.frames ++ [(some current, some function)]
  functions : after.functions = record.functions ++ [record.scopes.length]
  names : after.names = record.names ++ [name.getD (.text "")]
  defined : ∀ id < record.scopes.length, ∀ symbols,
    (record.scope id).symbols = firstSymbols symbols →
    (after.scope id).symbols =
      firstSymbols (symbols ++ if current = id then nameSymbols id name else [])
  bound : (after.scope record.scopes.length).symbols = firstSymbols function.parameterSymbols

theorem scope_push_of_lt (known : id < record.scopes.length) (name : Value)
    (function : Option Node) : (record.push name function).scope id = record.scope id := by
  unfold scope push
  rw [List.getD_eq_getElem?_getD, List.getD_eq_getElem?_getD, List.getElem?_append_left known]

theorem current_lt_push (record : ScopeRecord) (name : Value) (function : Option Node) :
    (record.push name function).current < (record.push name function).scopes.length := by
  unfold push
  rw [List.length_append]
  exact Nat.lt_succ_self _

theorem symbols_push_of_new (record : ScopeRecord) (name : Value) (function : Option Node) :
    ((record.push name function).scope record.scopes.length).symbols = [] := by
  unfold scope push
  rw [List.getD_eq_getElem?_getD, List.getElem?_concat_length]
  rfl

theorem IsStacked.enters (stacked : record.IsStacked) {function : Node}
    (fine : (record.enter function).2 = .ok ()) :
    ∃ name, Enters record (record.enter function).1 function
      (record.leave function record.outer).1.current name := by
  obtain ⟨closed, closes, -⟩ := record.leave_closes function
  have closing := stacked.moves (record.leave_moves function)
  have counting := record.enter_functions function
  obtain ⟨left, name, params, rfl, named, listed, bound, scopes⟩ := enter_eq_ok fine
  generalize (record.leave function record.outer).1 = left at closes closing bound scopes
  have naming := nameFunction_sameNesting left name
  have size : (left.nameFunction name).scopes.length = record.scopes.length := by
    rw [naming.length, closes.scopes]
  generalize opening : (left.nameFunction name).push (name.getD (.text "")) (some function) = opened
    at bound scopes
  have current : opened.current = record.scopes.length := by
    rw [← opening, ← size]
    rfl
  have binding := bindParameters_sameNesting opened 0 params
  have symbols (id : ScopeId) : ((record.enter function).1.scope id).symbols =
      ((opened.bindParameters 0 params).1.scope id).symbols := by
    unfold ScopeRecord.scope
    rw [scopes]
  have known : opened.current < opened.scopes.length := by
    rw [← opening]
    exact current_lt_push _ _ _
  refine ⟨name, named, closes.scopes ▸ closing.current_lt, ?_, ?_, ?_, ?_, ?_⟩
  · calc (record.enter function).1.frames
      _ = (opened.bindParameters 0 params).1.frames := congrArg (List.map frame) scopes
      _ = opened.frames := binding.frames
      _ = (left.nameFunction name).frames ++ [(some left.current, some function)] := by
            rw [← opening, ← naming.current]
            exact List.map_append
      _ = record.frames ++ [(some left.current, some function)] := by
            rw [naming.frames]
            exact congrArg (fun scopes => List.map frame scopes ++ _) closes.scopes
  · rw [counting, fine]
    rfl
  · calc (record.enter function).1.names
      _ = (opened.bindParameters 0 params).1.names := congrArg (List.map Scope.name) scopes
      _ = opened.names := opened.names_bindParameters 0 params
      _ = (left.nameFunction name).names ++ [name.getD (.text "")] := by
            rw [← opening]
            exact List.map_append
      _ = record.names ++ [name.getD (.text "")] := by
            rw [left.names_nameFunction]
            exact congrArg (fun scopes => List.map Scope.name scopes ++ _) closes.scopes
  · intro id old brought before
    have apart : opened.current ≠ id := by
      rw [current]
      exact Nat.ne_of_gt old
    have defined : (opened.scope id).symbols =
        firstSymbols (brought ++ if left.current = id then nameSymbols id name else []) := by
      rw [← opening, scope_push_of_lt (size.symm ▸ old)]
      refine closing.scope_nameFunction name ?_
      unfold ScopeRecord.scope at before ⊢
      rwa [closes.scopes]
    rw [symbols, scope_bindParameters known 0 bound defined, if_neg apart, List.append_nil]
  · have nothing : (opened.scope record.scopes.length).symbols = firstSymbols [] := by
      rw [← opening, ← size]
      exact symbols_push_of_new _ _ _
    rw [symbols, scope_bindParameters known 0 bound nothing, if_pos current, List.nil_append]
    unfold Node.parameterSymbols
    rw [listed]

namespace Enters

variable {after : ScopeRecord} {function : Node} {current : ScopeId} {name : Option Value}
  (enters : Enters record after function current name)

include enters

theorem length : after.scopes.length = record.scopes.length + 1 := by
  have lengths := congrArg List.length enters.frames
  rwa [List.length_append, ScopeRecord.frames, ScopeRecord.frames, List.length_map,
    List.length_map] at lengths

theorem frame_of_lt (known : id < record.scopes.length) :
    frame (after.scope id) = frame (record.scope id) :=
  frame_of_grown ⟨_, enters.frames.symm⟩ known

theorem frame_of_new :
    frame (after.scope record.scopes.length) = (some current, some function) := by
  have length : record.frames.length = record.scopes.length := List.length_map _
  rw [frame_scope, enters.frames, List.getD_eq_getElem?_getD, ← length,
    List.getElem?_concat_length]
  rfl

theorem parent_of_new : (after.scope record.scopes.length).parent = some current :=
  congrArg Prod.fst enters.frame_of_new

theorem function_of_new : (after.scope record.scopes.length).function = some function :=
  congrArg Prod.snd enters.frame_of_new

variable (older : ∀ inner ∈ record.functions, inner < record.scopes.length)

include older

/-- The name of the function is brought to the scope around it and to no other one. -/
theorem brought_of_lt (known : id < record.scopes.length) :
    after.brought id =
      record.brought id ++ if current = id then nameSymbols id name else [] := by
  have owner : (after.scope id).function = (record.scope id).function :=
    congrArg Prod.snd (enters.frame_of_lt known)
  have before : record.functions.filterMap (after.nameSymbol? id) =
      record.functions.filterMap (record.nameSymbol? id) := by
    refine List.filterMap_congr fun inner entered => ?_
    have same := enters.frame_of_lt (older inner entered)
    have parent : (after.scope inner).parent = (record.scope inner).parent := congrArg Prod.fst same
    have function : (after.scope inner).function = (record.scope inner).function :=
      congrArg Prod.snd same
    unfold nameSymbol?
    rw [parent, function]
  have last : [record.scopes.length].filterMap (after.nameSymbol? id) =
      if current = id then nameSymbols id name else [] := by
    rw [List.filterMap_cons, List.filterMap_nil]
    unfold nameSymbol? Node.ownName?
    rw [enters.parent_of_new, enters.function_of_new]
    by_cases here : current = id
    · rw [if_pos (congrArg some here), if_pos here, Option.bind_some, enters.named]
      cases name <;> rfl
    · rw [if_neg (here ∘ Option.some.inj), if_neg here]
  unfold brought
  rw [owner, enters.functions, List.filterMap_append, before, last, List.append_assoc]

/-- Only the parameters of the function are brought to its scope so far. -/
theorem brought_of_new (stacked : record.IsStacked) :
    after.brought record.scopes.length = function.parameterSymbols := by
  have nothing : after.functions.filterMap (after.nameSymbol? record.scopes.length) = [] := by
    refine List.filterMap_eq_nil_iff.mpr fun inner held => if_neg fun around => ?_
    rw [enters.functions] at held
    rcases List.mem_append.mp held with before | new
    · have known := older inner before
      have same : (after.scope inner).parent = (record.scope inner).parent :=
        congrArg Prod.fst (enters.frame_of_lt known)
      exact absurd (stacked.parent_lt (same.symm.trans around)) (Nat.not_lt_of_gt known)
    · cases List.mem_singleton.mp new
      cases enters.parent_of_new.symm.trans around
      exact Nat.lt_irrefl _ enters.inside
  unfold brought
  rw [enters.function_of_new, nothing, List.append_nil]
  rfl

end Enters

/-! ## Tables -/

/-- A record whose scopes are those of the program and of some functions, in the order of
their entries, are called like these, and have what was brought to them as their symbols. -/
structure IsTabled (record : ScopeRecord) (entered : List Node) : Prop where
  stacked : record.IsStacked
  functions : record.functions = List.range' 1 entered.length
  length : record.scopes.length = entered.length + 1
  names : record.names =
    .text "<program>" :: entered.map fun function => function.ownName?.getD (.text "")
  unowned : (record.scope programId).function = none
  owners : ∀ (index : Nat) function, entered[index]? = some function →
    (record.scope (index + 1)).function = some function
  symbols : ∀ id < record.scopes.length,
    (record.scope id).symbols = firstSymbols (record.brought id)

theorem initial_isTabled : initial.IsTabled [] := by
  refine ⟨initial_isStacked, rfl, rfl, rfl, rfl, ?_, fun id known => ?_⟩
  · exact fun index function found => nomatch found
  · obtain rfl : id = 0 := Nat.lt_one_iff.mp known
    rfl

namespace IsTabled

variable {entered : List Node} (tabled : record.IsTabled entered)

include tabled

theorem functions_lt : ∀ inner ∈ record.functions, inner < record.scopes.length := by
  intro inner held
  rw [tabled.functions, List.mem_range'_1] at held
  rw [tabled.length, Nat.add_comm]
  exact held.2

/-- An entry that succeeds keeps a record tabled. -/
theorem enter {function : Node} (fine : (record.enter function).2 = .ok ()) :
    (record.enter function).1.IsTabled (entered ++ [function]) := by
  obtain ⟨name, enters⟩ := tabled.stacked.enters fine
  have older := tabled.functions_lt
  refine ⟨tabled.stacked.moves (record.enter_moves function), ?_, ?_, ?_, ?_, ?_,
    fun id known => ?_⟩
  · rw [enters.functions, tabled.functions, tabled.length, List.length_append,
      List.length_singleton, List.range'_1_concat, Nat.add_comm 1]
  · rw [enters.length, tabled.length, List.length_append, List.length_singleton]
  · have own : function.ownName? = name := by
      unfold Node.ownName?
      rw [enters.named]
    rw [enters.names, tabled.names, List.map_append, List.map_singleton, own, List.cons_append]
  · have program : programId < record.scopes.length := by
      rw [tabled.length]
      exact Nat.succ_pos _
    exact (congrArg Prod.snd (enters.frame_of_lt program)).trans tabled.unowned
  · intro index owner found
    rw [List.getElem?_append] at found
    split at found
    · next before =>
        have old : index + 1 < record.scopes.length := by
          rw [tabled.length]
          exact Nat.succ_lt_succ before
        exact (congrArg Prod.snd (enters.frame_of_lt old)).trans (tabled.owners index owner found)
    · next beyond =>
        obtain ⟨bound, same⟩ := List.getElem?_eq_some_iff.mp found
        have last : index + 1 = record.scopes.length := by
          rw [List.length_singleton] at bound
          rw [tabled.length]
          omega
        rw [last, enters.function_of_new, ← same, List.getElem_singleton]
  · rcases Nat.lt_succ_iff_lt_or_eq.mp (Nat.lt_of_lt_of_eq known enters.length) with old | rfl
    · rw [enters.defined id old _ (tabled.symbols id old), enters.brought_of_lt older old]
    · rw [enters.bound, enters.brought_of_new older tabled.stacked]

theorem enterAll {functions : List Node} (fine : (record.enterAll functions).2 = .ok ()) :
    (record.enterAll functions).1.IsTabled (entered ++ functions) := by
  induction functions generalizing record entered with
  | nil => rwa [List.append_nil]
  | cons function rest ih =>
      have first := enter_ok_of_enterAll fine
      rw [enterAll_cons first] at fine ⊢
      rw [List.append_cons]
      exact ih (tabled.enter first) fine

end IsTabled

end ScopeRecord

/-- The file, the log and the record of a program whose rendering succeeds and is safe. -/
theorem Session.generate_of_safe {options : Options} {root : Node} {text : String}
    (program : root.kind = "Program")
    (safe : ∀ event ∈ (PhpRendering.render options (.node root) {}).events, event.IsSafe)
    (rendered : (PhpRendering.render options (.node root) {}).outcome = .ok text)
    (log : List Diagnostic) (found : String) :
    let session : Session := ⟨options, log, .scoping .initial⟩
    let rendering := PhpRendering.render options (.node root) {}
    (session.generate (.node root) found).2 = .ok (options.openTag ++ text) ∧
      (session.generate (.node root) found).1.log =
        log ++ rendering.events.filterMap Event.diagnostic? ∧
      (session.generate (.node root) found).1.recorder =
        .scoping (ScopeRecord.initial.enterAll rendering.functions).1 ∧
      (ScopeRecord.initial.enterAll rendering.functions).2 = .ok () := by
  intro session rendering
  have scoping : session.recorder = .scoping .initial := rfl
  have ready : session.recorder.IsReady := ScopeRecord.initial_isSearchable
  obtain ⟨fine, -⟩ := Session.observeAll_ok ready safe
  obtain ⟨recorder, outcome⟩ := Session.observeAll_scoping scoping rendering.events
  rw [Session.generate_program program]
  unfold Session.render
  rw [Session.run_of_observed fine, rendered]
  exact ⟨rfl, Session.observeAll_log fine, recorder, outcome.symm.trans fine⟩

/-- After the run of a readable program, from an empty record, no definition was refused and
the scopes are those of the entered functions, in the order of their entries. Each has as
its symbols what was brought to it, every name where it comes first: the parameters of its
function, and then the functions directly inside it. To the scope of the program only
functions are brought, and only there they are global. -/
theorem symbols_of_program (options : Options) (log : List Diagnostic) {root : Node}
    (program : root.kind = "Program") (readable : root.Readable) (found : String) :
    ∃ record file,
      (Session.generate ⟨options, log, .scoping .initial⟩ (.node root) found).1.recorder =
        .scoping record ∧
      (Session.generate ⟨options, log, .scoping .initial⟩ (.node root) found).2 = .ok file ∧
      ScopeRecord.Moves .initial record ∧
      record.functions = List.range' 1 (render options (.node root) {}).functions.length ∧
      (∀ (index : Nat) function,
        (render options (.node root) {}).functions[index]? = some function →
        (record.scope (index + 1)).function = some function) ∧
      ∀ id, id = ScopeRecord.programId ∨ id ∈ record.functions →
        (record.scope id).symbols = firstSymbols (record.brought id) := by
  have scoping : (⟨options, log, .scoping .initial⟩ : Session).recorder = .scoping .initial := rfl
  have ready : (⟨options, log, .scoping .initial⟩ : Session).recorder.IsReady :=
    ScopeRecord.initial_isSearchable
  have usable : Position.IsUsable {} := ⟨rfl, ImportSource.noConfusion⟩
  obtain ⟨⟨file, fine⟩, -⟩ := Session.generate_ok ready program readable found
  obtain ⟨observed, -⟩ :=
    Session.observeAll_ok ready (render_isSafe options readable usable).events
  obtain ⟨recorder, outcome⟩ :=
    Session.observeAll_scoping scoping (render options (.node root) {}).events
  have tabled := ScopeRecord.initial_isTabled.enterAll (outcome.symm.trans observed)
  refine ⟨_, file, ?_, fine, ScopeRecord.initial.enterAll_moves _, tabled.functions, tabled.owners,
    fun id known => tabled.symbols id ?_⟩
  · rw [Session.generate_program program]
    unfold Session.render
    rw [Session.run_fst]
    exact recorder
  · rcases known with rfl | entered
    · exact tabled.stacked.current_lt.trans_le' (Nat.zero_le _)
    · exact tabled.functions_lt id entered

/-- The program `function f(a, b, a) { function b() {} function g() {} function g() {} }`,
with a function of a parameter without letters behind it. -/
def shadowingSource : Json :=
  let identifier (name : String) : Json :=
    .object [("type", .text "Identifier"), ("name", .text name)]
  let function (name : String) (params : List String) (statements : List Json) : Json :=
    .object [("type", .text "FunctionDeclaration"), ("id", identifier name),
      ("params", .array (params.map identifier)),
      ("body", .object [("type", .text "BlockStatement"), ("body", .array statements)])]
  .object [("type", .text "Program"),
    ("body", .array
      [function "f" ["a", "b", "a"] [function "b" [] [], function "g" [] [], function "g" [] []],
        function "h" [""] []])]

def shadowingProgram : Node :=
  match Value.ofJson .data 0 shadowingSource with
  | .node root => root
  | _ => ⟨⟨0, []⟩, "Program", [], none⟩

/-- The second `a`, the function `b` and the second `g` bring nothing. -/
theorem shadowingProgram_symbols :
    ∃ record, (Session.generate {} (.node shadowingProgram) "Node").1.recorder = .scoping record ∧
      ScopeRecord.Moves .initial record ∧
      (record.scope 1).symbols = firstSymbols (record.brought 1) ∧
      (record.brought 1).length = 6 ∧
      (record.scope 1).symbols =
        [{ name := .text "a", parameter := 0 }, { name := .text "b", parameter := 1 },
          { name := .text "g", isFunction := true }] := by
  have readable : shadowingProgram.Readable := Node.readable_of_check 8 (by decide)
  obtain ⟨record, file, recorder, -, moves, functions, -, symbols⟩ :=
    symbols_of_program {} [] rfl readable "Node"
  have same : record.functions = [1, 2, 3, 4, 5] := functions
  refine ⟨record, recorder, moves, symbols 1 (.inr (same ▸ List.mem_cons_self ..)), ?_, ?_⟩
  · cases recorder
    rfl
  · cases recorder
    rfl

/-- A parameter whose name has no letters is no symbol of its scope. -/
theorem emptyParameter_is_no_symbol :
    shadowingProgram.Readable ∧
      ∃ record function param,
        (Session.generate {} (.node shadowingProgram) "Node").1.recorder = .scoping record ∧
        (record.scope 5).function = some function ∧
        function.optionalItems "params" = .ok [.node param] ∧ param.kind = "Identifier" ∧
        param.field "name" = .text "" ∧ (record.scope 5).symbols = [] :=
  ⟨Node.readable_of_check 8 (by decide), _, _, _, rfl, rfl, rfl, rfl, rfl, rfl⟩

end PhpRendering
